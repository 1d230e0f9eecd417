import Gazetteer.Ingest
import Gazetteer.Main
import Gazetteer.Proofs.Address.Described
import Gazetteer.Proofs.Address.Postcode
import Gazetteer.Proofs.Address.Spread
import Gazetteer.Proofs.Address.Stutter
import Gazetteer.Proofs.Hierarchy.Assignment
import Gazetteer.Proofs.Hierarchy.Eviction
import Gazetteer.Proofs.Hierarchy.Limits
import Gazetteer.Proofs.Hierarchy.OwnParents
import Gazetteer.Proofs.Hierarchy.OwnStreet
import Gazetteer.Proofs.Geocoder.BruteForce
import Gazetteer.Proofs.Geocoder.Coverage
import Gazetteer.Proofs.Geocoder.Distance
import Gazetteer.Proofs.Geocoder.Failing
import Gazetteer.Proofs.Geocoder.Sharing
import Gazetteer.Proofs.Geocoder.Shown
import Gazetteer.Proofs.Importance
import Gazetteer.Proofs.Language.Ranking
import Gazetteer.Proofs.Language.Refusal
import Gazetteer.Proofs.Language.Rereading
import Gazetteer.Proofs.Osm.ClosedPieces
import Gazetteer.Proofs.Osm.Conservation
import Gazetteer.Proofs.Osm.Merging
import Gazetteer.Proofs.Osm.Names
import Gazetteer.Proofs.Osm.Starts
import Gazetteer.Proofs.Osm.Surveys
import Gazetteer.Proofs.Osm.Untranslated
import Gazetteer.Proofs.Plane.AnyOrder
import Gazetteer.Proofs.Plane.Deviation
import Gazetteer.Proofs.Plane.Holes
import Gazetteer.Proofs.Plane.Tolerances
import Gazetteer.Proofs.Selection.Reordering
import Gazetteer.Proofs.Snapshot.Loading
import Gazetteer.Proofs.Spatial.Containing
