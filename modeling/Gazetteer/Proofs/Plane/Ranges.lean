import Gazetteer.Proofs.Plane.Thinning

/-!
# The list of pending ranges

Working through the pending ranges keeps the positions at which they are split, and the ends of
the list.  Which of two ranges comes first makes no difference, because how a range is split
depends on the vertices between its ends only.
-/

namespace Gazetteer.Simplify

/-! ## The positions that come out of a range -/

section Positions

variable {split? : Range → Option Nat} {range : Range} {middle position : Nat}

/-- A range is split at a position, or one of the two parts that it is split into is. -/
inductive SplitsAt (split? : Range → Option Nat) : Range → Nat → Prop where
  | here {range : Range} {middle : Nat} (split : split? range = some middle)
      (inside : range.first < middle ∧ middle < range.last) : SplitsAt split? range middle
  | left {range : Range} {middle position : Nat} (split : split? range = some middle)
      (inside : range.first < middle ∧ middle < range.last)
      (further : SplitsAt split? ⟨range.first, middle⟩ position) :
      SplitsAt split? range position
  | right {range : Range} {middle position : Nat} (split : split? range = some middle)
      (inside : range.first < middle ∧ middle < range.last)
      (further : SplitsAt split? ⟨middle, range.last⟩ position) :
      SplitsAt split? range position

/-- Ranges are split strictly between their ends. -/
theorem SplitsAt.inside (splits : SplitsAt split? range position) :
    range.first < position ∧ position < range.last := by
  induction splits with
  | here _ inside => exact inside
  | left _ inside _ ih => exact ⟨ih.1, ih.2.trans inside.2⟩
  | right _ inside _ ih => exact ⟨inside.1.trans ih.1, ih.2⟩

theorem splitsAt_iff (split : split? range = some middle)
    (inside : range.first < middle ∧ middle < range.last) :
    SplitsAt split? range position ↔
      position = middle ∨ SplitsAt split? ⟨range.first, middle⟩ position ∨
        SplitsAt split? ⟨middle, range.last⟩ position := by
  constructor
  · intro splits
    cases splits with
    | here same _ => exact Or.inl (Option.some.inj (same.symm.trans split))
    | left same _ further =>
        obtain rfl := Option.some.inj (same.symm.trans split)
        exact Or.inr (Or.inl further)
    | right same _ further =>
        obtain rfl := Option.some.inj (same.symm.trans split)
        exact Or.inr (Or.inr further)
  · rintro (rfl | further | further)
    · exact .here split inside
    · exact .left split inside further
    · exact .right split inside further

theorem splitsAt_iff_left (split : split? range = some middle)
    (inside : range.first < middle ∧ middle < range.last) (before : position < middle) :
    SplitsAt split? range position ↔ SplitsAt split? ⟨range.first, middle⟩ position := by
  constructor
  · intro splits
    rcases (splitsAt_iff split inside).mp splits with rfl | further | further
    · exact absurd before (Nat.lt_irrefl position)
    · exact further
    · exact absurd further.inside.1 before.asymm
  · exact .left split inside

theorem splitsAt_iff_right (split : split? range = some middle)
    (inside : range.first < middle ∧ middle < range.last) (after : middle < position) :
    SplitsAt split? range position ↔ SplitsAt split? ⟨middle, range.last⟩ position := by
  constructor
  · intro splits
    rcases (splitsAt_iff split inside).mp splits with rfl | further | further
    · exact absurd after (Nat.lt_irrefl position)
    · exact absurd further.inside.2 after.asymm
    · exact further
  · exact .right split inside

theorem exists_split_of_splitsAt (splits : SplitsAt split? range position) :
    ∃ middle, split? range = some middle ∧ range.first < middle ∧ middle < range.last := by
  cases splits with
  | here split inside => exact ⟨_, split, inside⟩
  | left split inside _ => exact ⟨_, split, inside⟩
  | right split inside _ => exact ⟨_, split, inside⟩

theorem not_splitsAt_of_eq_none (whole : split? range = none) (position : Nat) :
    ¬ SplitsAt split? range position := by
  intro splits
  obtain ⟨middle, split, _⟩ := exists_split_of_splitsAt splits
  rw [whole] at split
  contradiction

/-- The positions collected are those that are there already and those at which a pending
range splits. -/
theorem mem_drain_iff {pending : List Range} {kept : List Nat} :
    position ∈ drain split? pending kept ↔
      position ∈ kept ∨ ∃ range ∈ pending, SplitsAt split? range position := by
  fun_induction drain split? pending kept with
  | case1 kept => simp
  | case2 range pending kept whole ih =>
      have never := not_splitsAt_of_eq_none whole position
      simp only [ih, List.mem_cons, exists_eq_or_imp, or_iff_right never]
  | case3 range pending kept middle split inside ih =>
      simp only [ih, List.mem_cons, exists_eq_or_imp, splitsAt_iff split inside]
      tauto
  | case4 range pending kept middle split outside ih =>
      have never : ¬ SplitsAt split? range position := by
        intro splits
        obtain ⟨other, same, inside⟩ := exists_split_of_splitsAt splits
        obtain rfl := Option.some.inj (split.symm.trans same)
        exact outside inside
      simp only [ih, List.mem_cons, exists_eq_or_imp, or_iff_right never]

end Positions

/-! ## The vertices of a range -/

variable {κ δ : Type}

theorem length_append_cons (before : List κ) (middle : κ) (after : List κ) :
    (before ++ middle :: after).length = before.length + 1 + after.length := by
  rw [List.length_append, List.length_cons, Nat.add_assoc, Nat.add_comm 1]

variable [Zero δ] [LT δ] [DecidableLT δ] {deviation : Segment κ → κ → δ} {tolerance : δ}
  {vertices : List κ}

/-- A range is split where its interior is. -/
theorem split?_eq_map_splitBetween? [FloatingOrder δ] (positive : 0 < tolerance)
    (deviation : Segment κ → κ → δ) {outer interior rest : List κ}
    {first last : κ} (whole : vertices = outer ++ first :: (interior ++ last :: rest)) :
    Range.split? deviation tolerance vertices
        ⟨outer.length, outer.length + 1 + interior.length⟩ =
      (splitBetween? deviation tolerance first last interior).map fun parts =>
        outer.length + 1 + parts.1.length := by
  have isFirst : vertices[outer.length]? = some first := by simp [whole]
  have isLast : vertices[outer.length + 1 + interior.length]? = some last := by
    simp [whole, Nat.add_assoc, Nat.add_comm 1]
  have between : Range.interior ⟨outer.length, outer.length + 1 + interior.length⟩ vertices =
      interior := by
    have length : outer.length + 1 + interior.length - outer.length - 1 = interior.length := by
      omega
    simp [Range.interior, whole, length]
  rw [Range.split?, isFirst, isLast]
  simp only [between]
  rcases flat_or_isPeak (deviation ⟨first, last⟩) 0 interior with
    flat | ⟨before, middle, after, rfl, isPeak⟩
  · rw [peak_of_flat flat, splitBetween?_of_flat positive flat]
    exact if_neg (FloatingOrder.asymm positive)
  · rw [peak_of_isPeak isPeak, splitBetween?_of_isPeak isPeak]
    split <;> rfl

/-! ## Thinning a list -/

@[simp] theorem thin_singleton (vertex : κ) : thin deviation tolerance [vertex] = [vertex] := by
  have kept : 0 ∈ keptPositions deviation tolerance [vertex] :=
    mem_drain_iff.mpr (Or.inl List.mem_cons_self)
  simp [thin, kept]

/-- Thinning keeps both ends, whatever the tolerance. -/
theorem head?_thin (deviation : Segment κ → κ → δ) (tolerance : δ) (vertices : List κ) :
    (thin deviation tolerance vertices).head? = vertices.head? := by
  cases vertices with
  | nil => rfl
  | cons first rest =>
      have kept : 0 ∈ keptPositions deviation tolerance (first :: rest) :=
        mem_drain_iff.mpr (Or.inl (by simp))
      simp [thin, kept]

theorem getLast?_thin (deviation : Segment κ → κ → δ) (tolerance : δ) (vertices : List κ) :
    (thin deviation tolerance vertices).getLast? = vertices.getLast? := by
  rcases List.eq_nil_or_concat vertices with rfl | ⟨rest, last, rfl⟩
  · rfl
  · rw [List.concat_eq_append]
    have kept : rest.length ∈ keptPositions deviation tolerance (rest ++ [last]) :=
      mem_drain_iff.mpr (Or.inl (by simp))
    simp [thin, List.zipIdx_append, kept]

theorem mem_keptPositions_iff {first last : κ} {interior : List κ} {position : Nat} :
    position ∈ keptPositions deviation tolerance (first :: (interior ++ [last])) ↔
      position = 0 ∨ position = interior.length + 1 ∨
        SplitsAt (Range.split? deviation tolerance (first :: (interior ++ [last])))
          ⟨0, interior.length + 1⟩ position := by
  simp [keptPositions, mem_drain_iff, or_assoc, or_left_comm]

end Gazetteer.Simplify
