import Gazetteer.Place
import Gazetteer.Decimal.Shortest

/-!
# Failures

Everything that can go wrong between a snapshot and an answer, told apart by cause.  The
wording of each cause is fixed in one place, `Failure.message`.
-/

namespace Gazetteer

/-- What is wrong with settings. -/
inductive SettingsFault where
  | zoomRanksLength (found : Nat)
  | zoomRanksTooDetailed
  | zoomRanksDecrease
  | chainLengthZero
  | candidatesZero
  | radiusNotPositive
  | zoomTableLength (found : Nat)
  | zoomTableDecreases
deriving DecidableEq, Repr

/-- The number of zoom levels, from 0 to 18. -/
def zoomLevels : Nat := 19

/-- The wording of a fault in settings. -/
def SettingsFault.message : SettingsFault → String
  | zoomRanksLength found =>
    "zoom_ranks needs " ++ toString zoomLevels ++ " entries, got " ++ toString found
  | zoomRanksTooDetailed => "zoom_ranks entries must not exceed 30"
  | zoomRanksDecrease => "zoom_ranks must be non-decreasing"
  | chainLengthZero => "max_chain_len must be at least 1"
  | candidatesZero => "max_candidates must be at least 1"
  | radiusNotPositive => "max_radius_deg must be a positive number"
  | zoomTableLength found =>
    "zoom table needs " ++ toString zoomLevels ++ " entries, got " ++ toString found
  | zoomTableDecreases => "zoom table must be non-decreasing"

/-- What is wrong with a snapshot. -/
inductive SnapshotFault where
  | undecodable
  | version (found : Nat)
  | count (announced found : Nat)
  | misnumbered (position : Nat) (id : PlaceId)
  | missingParent (id parent : PlaceId)
deriving DecidableEq, Repr

/-- The wording of a fault in a snapshot. -/
def SnapshotFault.message : SnapshotFault → String
  | undecodable => "no snapshot can be read from it"
  | version found => "unsupported format version " ++ toString found
  | count announced found =>
    "header announces " ++ toString announced ++ " objects, found " ++ toString found
  | misnumbered position id =>
    "object at position " ++ toString position ++ " has id " ++ toString id.toNat
  | missingParent id parent =>
    "object " ++ toString id.toNat ++ " references missing parent " ++ toString parent.toNat

/-- Why there is no answer. -/
inductive Failure (K : Type) where
  /-- No eligible place is near and no area contains the point. -/
  | noCoverage
  /-- More than one output format is asked for. -/
  | conflictingFormats
  /-- The coordinate is not on the globe. -/
  | invalidCoordinate (lat lon : K)
  | invalidSettings (fault : SettingsFault)
  | snapshot (fault : SnapshotFault)
  /-- A file cannot be read. -/
  | unreadable
deriving DecidableEq, Repr

namespace Failure

/-- Failures that are the fault of the request, found before anything is looked up. -/
def isBadRequest {K : Type} : Failure K → Bool
  | conflictingFormats => true
  | invalidCoordinate _ _ => true
  | _ => false

/-- The wording of a failure. -/
def message : Failure Float → String
  | noCoverage => "Unable to geocode: no OSM data coverage at this location"
  | conflictingFormats => "Only one polygon output format may be requested"
  | invalidCoordinate lat lon =>
    "Invalid coordinate: lat=" ++ Decimal.inMessages.write lat ++ ", lon=" ++
      Decimal.inMessages.write lon
  | invalidSettings fault => "Invalid configuration: " ++ fault.message
  | snapshot fault => "Snapshot error: " ++ fault.message
  | unreadable => "cannot be read"

end Failure

end Gazetteer
