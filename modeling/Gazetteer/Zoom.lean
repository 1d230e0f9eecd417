import Gazetteer.Hierarchy.Chain

/-!
# Zoom levels

A zoom level says how detailed an answer may be.  A table gives each of the levels 0 to 18
the greatest rank that is kept; the ranks never fall from one level to the next.
-/

namespace Gazetteer

/-- The greatest rank kept at each zoom level. -/
structure ZoomTable where
  ranks : List Rank
  complete : ranks.length = zoomLevels
  rises : ranks.Pairwise (· ≤ ·)

namespace ZoomTable

/-- The most detailed level. -/
def maxZoom : Nat := zoomLevels - 1

/-- The table that is used unless the settings give another: continents and seas, countries,
states, regions, counties, cities, towns, suburbs, streets, buildings. -/
def defaultRanks : List Rank :=
  [2, 2, 2, 4, 4, 8, 10, 10, 12, 12, 16, 16, 18, 18, 22, 22, 26, 27, 30]

/-- The table that is used unless the settings give another. -/
def standard : ZoomTable :=
  ⟨defaultRanks, by decide, by decide⟩

/-- A table of the given ranks, one for each level and none below the one before it. -/
def ofRanks (ranks : List Rank) : Except SettingsFault ZoomTable :=
  if complete : ranks.length = zoomLevels then
    if rises : ranks.Pairwise (· ≤ ·) then .ok ⟨ranks, complete, rises⟩
    else .error .zoomTableDecreases
  else .error (.zoomTableLength ranks.length)

/-- The level that a request means: numbers outside the table mean its nearest end. -/
def clamp (zoom : Int) : Nat :=
  min zoom.toNat maxZoom

/-- Every request falls on a level of the table. -/
theorem clamp_lt (zoom : Int) : clamp zoom < zoomLevels := by
  unfold clamp maxZoom zoomLevels
  omega

/-- The greatest rank kept at a zoom level. -/
def maxRank (table : ZoomTable) (zoom : Int) : Rank :=
  table.ranks.get ⟨clamp zoom, by rw [table.complete]; exact clamp_lt zoom⟩

/-- The levels of a chain that a zoom level keeps.  At the most detailed zoom the place the
chain starts from is kept whatever its rank. -/
def truncate (table : ZoomTable) (chain : Chain) (zoom : Int) : List ChainEntry :=
  let keeps (entry : ChainEntry) : Bool := entry.rank ≤ table.maxRank zoom
  match chain.entries with
  | [] => []
  | first :: rest =>
    if clamp zoom = maxZoom then first :: rest.filter keeps else (first :: rest).filter keeps

end ZoomTable

end Gazetteer
