import Gazetteer.Zoom

/-!
# What the zoom keeps

Along a chain ranks fall, so the levels that a zoom keeps are a suffix of those that any more
detailed zoom keeps.  The most detailed zoom keeps the first level whatever its rank, which
may leave a gap behind it but never a level that a coarser zoom has and it has not.
-/

namespace Gazetteer

/-- Of a list along which a property is never lost again, those that have it are a suffix. -/
theorem filter_isSuffix {α : Type} {keeps : α → Bool} {list : List α}
    (stays : list.Pairwise fun first second => keeps first = true → keeps second = true) :
    list.filter keeps <:+ list := by
  induction list with
  | nil => exact List.suffix_rfl
  | cons first rest ih =>
      obtain ⟨fromFirst, tail⟩ := List.pairwise_cons.mp stays
      by_cases kept : keeps first = true
      · have all : ∀ other ∈ first :: rest, keeps other = true := by
          intro other member
          rcases List.mem_cons.mp member with rfl | later
          · exact kept
          · exact fromFirst other later kept
        exact ⟨[], List.filter_eq_self.mpr all⟩
      · rw [List.filter_cons_of_neg kept]
        exact (ih tail).trans (List.suffix_cons first rest)

namespace ZoomTable

variable {table : ZoomTable} {zoom detailed : Int}

theorem clamp_le_clamp (le : zoom ≤ detailed) : clamp zoom ≤ clamp detailed := by
  unfold clamp
  omega

theorem clamp_le_maxZoom (zoom : Int) : clamp zoom ≤ maxZoom :=
  Nat.min_le_right ..

/-- Only the level of the table counts. -/
theorem maxRank_congr (table : ZoomTable) (same : clamp zoom = clamp detailed) :
    table.maxRank zoom = table.maxRank detailed := by
  simp [maxRank, same]

theorem truncate_congr (table : ZoomTable) (chain : Chain) (same : clamp zoom = clamp detailed) :
    table.truncate chain zoom = table.truncate chain detailed := by
  rw [truncate, truncate, maxRank_congr table same, same]

/-- A more detailed zoom keeps ranks at least as detailed. -/
theorem maxRank_le_maxRank (table : ZoomTable) (le : zoom ≤ detailed) :
    table.maxRank zoom ≤ table.maxRank detailed := by
  rcases Nat.lt_or_eq_of_le (clamp_le_clamp le) with lower | same
  · exact List.pairwise_iff_getElem.mp table.rises _ _ _ _ lower
  · exact UInt8.le_of_eq (maxRank_congr table same)

/-- Below the most detailed zoom, the levels are kept by rank alone. -/
theorem truncate_of_lt (table : ZoomTable) (chain : Chain) (lower : clamp zoom < maxZoom) :
    table.truncate chain zoom =
      chain.entries.filter fun entry => entry.rank ≤ table.maxRank zoom := by
  unfold truncate
  split
  · rename_i empty
    rw [empty]
    rfl
  · rename_i first rest whole
    rw [if_neg (Nat.ne_of_lt lower), whole]

/-- At the most detailed zoom, the first level is kept and the others by rank. -/
theorem truncate_of_eq (table : ZoomTable) {chain : Chain} {first : ChainEntry}
    {rest : List ChainEntry} (whole : chain.entries = first :: rest)
    (most : clamp zoom = maxZoom) :
    table.truncate chain zoom =
      first :: rest.filter fun entry => entry.rank ≤ table.maxRank zoom := by
  unfold truncate
  rw [whole]
  exact if_pos most

theorem truncate_sublist (table : ZoomTable) (chain : Chain) (zoom : Int) :
    (table.truncate chain zoom).Sublist chain.entries := by
  rcases Nat.lt_or_eq_of_le (clamp_le_maxZoom zoom) with lower | most
  · rw [truncate_of_lt table chain lower]
    exact List.filter_sublist
  · cases whole : chain.entries with
    | nil => simp [truncate, whole]
    | cons first rest =>
        rw [truncate_of_eq table whole most]
        exact List.filter_sublist.cons_cons first

/-- Of a chain along which ranks fall, a zoom keeps nothing exactly if it is not the most
detailed one and even the last level is too detailed for it. -/
theorem truncate_eq_nil_iff (table : ZoomTable) {chain : Chain} {last : ChainEntry}
    (falls : chain.entries.Pairwise fun lower upper => upper.rank < lower.rank)
    (final : chain.entries.getLast? = some last) :
    table.truncate chain zoom = [] ↔ clamp zoom < maxZoom ∧ table.maxRank zoom < last.rank := by
  obtain ⟨before, whole⟩ := List.getLast?_eq_some_iff.mp final
  rcases Nat.lt_or_eq_of_le (clamp_le_maxZoom zoom) with lower | most
  · rw [truncate_of_lt table chain lower, List.filter_eq_nil_iff, and_iff_right lower]
    constructor
    · intro beyond
      simpa using beyond last (by rw [whole]; exact List.mem_concat_self)
    · intro beyond entry member
      rw [whole] at falls member
      rcases List.mem_append.mp member with earlier | isLast
      · have above : last.rank < entry.rank :=
          (List.pairwise_append.mp falls).2.2 entry earlier last (List.mem_singleton_self last)
        simpa using UInt8.lt_trans beyond above
      · obtain rfl := List.mem_singleton.mp isLast
        simpa using beyond
  · cases listed : chain.entries with
    | nil =>
        rw [listed] at final
        contradiction
    | cons first rest =>
        rw [truncate_of_eq table listed most]
        constructor
        · intro empty
          contradiction
        · rintro ⟨lower, _⟩
          exact absurd most (Nat.ne_of_lt lower)

/-- What a coarser zoom keeps can be told from what is kept at a more detailed one. -/
theorem truncate_eq_filter_truncate (table : ZoomTable) (chain : Chain) (le : zoom ≤ detailed)
    (lower : clamp zoom < maxZoom) :
    table.truncate chain zoom =
      (table.truncate chain detailed).filter fun entry => entry.rank ≤ table.maxRank zoom := by
  have kept : ∀ entries : List ChainEntry,
      ((entries.filter fun entry => entry.rank ≤ table.maxRank detailed).filter fun entry =>
        entry.rank ≤ table.maxRank zoom) =
      entries.filter fun entry => entry.rank ≤ table.maxRank zoom := by
    intro entries
    rw [List.filter_filter]
    apply List.filter_congr
    intro entry _
    have finer : entry.rank ≤ table.maxRank zoom → entry.rank ≤ table.maxRank detailed :=
      fun low => UInt8.le_trans low (table.maxRank_le_maxRank le)
    simpa using finer
  rw [truncate_of_lt table chain lower]
  rcases Nat.lt_or_eq_of_le (clamp_le_maxZoom detailed) with below | most
  · rw [truncate_of_lt table chain below, kept]
  · cases whole : chain.entries with
    | nil => simp [truncate, whole]
    | cons first rest =>
        rw [truncate_of_eq table whole most, List.filter_cons, List.filter_cons, kept]

/-- The levels that a zoom keeps of a chain are a suffix of those kept at a more detailed
zoom. -/
theorem truncate_isSuffix (table : ZoomTable) {chain : Chain}
    (falls : chain.entries.Pairwise fun lower upper => upper.rank < lower.rank)
    (le : zoom ≤ detailed) : table.truncate chain zoom <:+ table.truncate chain detailed := by
  rcases Nat.lt_or_eq_of_le (clamp_le_maxZoom zoom) with lower | most
  · rw [truncate_eq_filter_truncate table chain le lower]
    refine filter_isSuffix (List.Pairwise.imp ?_ (falls.sublist (truncate_sublist table chain _)))
    intro first second fallen kept
    simp only [decide_eq_true_eq] at kept ⊢
    exact UInt8.le_trans (UInt8.le_of_lt fallen) kept
  · have same : clamp zoom = clamp detailed :=
      Nat.le_antisymm (clamp_le_clamp le) (most ▸ clamp_le_maxZoom detailed)
    exact ⟨[], truncate_congr table chain same⟩

end ZoomTable

end Gazetteer
