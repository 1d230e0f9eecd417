import Gazetteer.Proofs.Plane.Ranges

/-!
# The recursion behind thinning

Between two kept vertices the recursion keeps the first of those that deviate most, if it
deviates by more than the tolerance, and goes on with both halves.  `Marks` says this of a mark
for each vertex, so that vertices at the same place are told apart, and the marks of the halves
stand side by side.  For a positive tolerance a list has exactly one such list of marks.  The
marked positions are those that come out of the pending ranges, and the marked vertices are those
that thinning returns.
-/

namespace Gazetteer.Simplify

variable {κ δ : Type}

/-! ## Marks -/

section Recursion

variable [Zero δ] [LT δ]

/-- The marks that the recursion gives to the vertices between two kept ones.  No vertex is
marked where the peak, if there is one, is not beyond the tolerance; otherwise the peak is
marked, and the recursion goes on with what is before it and what is after it. -/
inductive MarksBetween (deviation : Segment κ → κ → δ) (tolerance : δ) :
    (first last : κ) → (interior : List κ) → (marks : List Bool) → Prop where
  | whole {first last : κ} {interior : List κ}
      (within : ∀ before middle after, interior = before ++ middle :: after →
        IsPeak (deviation ⟨first, last⟩) 0 before middle after →
          ¬ tolerance < deviation ⟨first, last⟩ middle) :
      MarksBetween deviation tolerance first last interior (interior.map fun _ => false)
  | split {first middle last : κ} {before after : List κ} {left right : List Bool}
      (isPeak : IsPeak (deviation ⟨first, last⟩) 0 before middle after)
      (beyond : tolerance < deviation ⟨first, last⟩ middle)
      (leftMarks : MarksBetween deviation tolerance first middle before left)
      (rightMarks : MarksBetween deviation tolerance middle last after right) :
      MarksBetween deviation tolerance first last (before ++ middle :: after)
        (left ++ true :: right)

/-- The marks that the recursion gives to a list of vertices: both ends are marked, and what the
recursion marks between them. -/
inductive Marks (deviation : Segment κ → κ → δ) (tolerance : δ) :
    (vertices : List κ) → (marks : List Bool) → Prop where
  | single (vertex : κ) : Marks deviation tolerance [vertex] [true]
  | ends {first last : κ} {interior : List κ} {marks : List Bool}
      (between : MarksBetween deviation tolerance first last interior marks) :
      Marks deviation tolerance (first :: (interior ++ [last])) (true :: (marks ++ [true]))

variable {deviation : Segment κ → κ → δ} {tolerance : δ} {vertices interior : List κ}
  {first last : κ} {marks : List Bool}

theorem MarksBetween.length_eq
    (isMarked : MarksBetween deviation tolerance first last interior marks) :
    marks.length = interior.length := by
  induction isMarked with
  | whole _ => exact List.length_map _
  | split _ _ _ _ left right => simp only [List.length_append, List.length_cons, left, right]

theorem Marks.length_eq (isMarked : Marks deviation tolerance vertices marks) :
    marks.length = vertices.length := by
  cases isMarked with
  | single vertex => rfl
  | ends between =>
      simp only [List.length_cons, List.length_append, between.length_eq, List.length_nil]

end Recursion

/-- Lists of marks are equal when they are of one length and mark the same positions. -/
theorem marks_ext {marks other : List Bool} (length : marks.length = other.length)
    (same : ∀ position : Nat, marks[position]? = some true ↔ other[position]? = some true) :
    marks = other := by
  apply List.ext_getElem length
  intro position isMark isOther
  have here := same position
  rw [List.getElem?_eq_getElem isMark, List.getElem?_eq_getElem isOther, Option.some.injEq,
    Option.some.injEq] at here
  exact Bool.eq_iff_iff.mpr here

theorem getElem?_map_false_ne (vertices : List κ) (position : Nat) :
    (vertices.map fun _ => false)[position]? ≠ some true := by
  rw [List.getElem?_map]
  cases vertices[position]? with
  | none => simp
  | some vertex => simp

/-- The vertices that are marked. -/
def marked (vertices : List κ) (marks : List Bool) : List κ :=
  ((vertices.zip marks).filter Prod.snd).map Prod.fst

theorem marked_append {before : List κ} {left : List Bool} (length : left.length = before.length)
    (after : List κ) (right : List Bool) :
    marked (before ++ after) (left ++ right) = marked before left ++ marked after right := by
  rw [marked, List.zip_append length.symm, List.filter_append, List.map_append]
  rfl

theorem marked_map_false (vertices : List κ) :
    marked vertices (vertices.map fun _ => false) = [] := by
  induction vertices with
  | nil => rfl
  | cons vertex rest ih => exact ih

/-- Vertices can be picked by their positions or by their marks. -/
theorem map_filter_zipIdx_eq_marked {vertices : List κ} {marks : List Bool} {keep : Nat → Bool}
    (length : marks.length = vertices.length) (start : Nat)
    (same : ∀ offset, keep (start + offset) = true ↔ marks[offset]? = some true) :
    ((vertices.zipIdx start).filter fun pair => keep pair.2).map Prod.fst =
      marked vertices marks := by
  induction vertices generalizing marks start with
  | nil => rfl
  | cons vertex rest ih =>
      obtain ⟨mark, marks, rfl⟩ := List.exists_cons_of_length_eq_add_one length
      have here : keep start = mark := by
        have atStart := same 0
        rw [Nat.add_zero, List.getElem?_cons_zero, Option.some.injEq] at atStart
        exact Bool.eq_iff_iff.mpr atStart
      have further := ih (Nat.succ.inj length) (start + 1) fun offset => by
        rw [Nat.add_assoc, Nat.add_comm 1, same, List.getElem?_cons_succ]
      rw [List.zipIdx_cons, List.filter_cons, here]
      cases mark with
      | false => exact further
      | true => exact congrArg (vertex :: ·) further

variable [Zero δ] [LT δ] [DecidableLT δ] {deviation : Segment κ → κ → δ} {tolerance : δ}
  {vertices interior : List κ} {first last : κ} {marks other : List Bool}

theorem mem_keptPositions_singleton (vertex : κ) {position : Nat} :
    position ∈ keptPositions deviation tolerance [vertex] ↔ position = 0 := by
  constructor
  · intro kept
    rcases mem_drain_iff.mp kept with isEnd | ⟨range, pending, splits⟩
    · simpa using isEnd
    · -- The only range goes from zero to zero and has nothing between its ends.
      obtain rfl := List.mem_singleton.mp pending
      exact absurd splits.inside.2 (Nat.not_lt_zero position)
  · rintro rfl
    exact mem_drain_iff.mpr (Or.inl List.mem_cons_self)

variable [FloatingOrder δ]

/-! ## The marked positions -/

theorem splitBetween?_of_within (positive : 0 < tolerance)
    (within : ∀ before middle after, interior = before ++ middle :: after →
      IsPeak (deviation ⟨first, last⟩) 0 before middle after →
        ¬ tolerance < deviation ⟨first, last⟩ middle) :
    splitBetween? deviation tolerance first last interior = none := by
  rcases flat_or_isPeak (deviation ⟨first, last⟩) 0 interior with
    flat | ⟨before, middle, after, rfl, isPeak⟩
  · exact splitBetween?_of_flat positive flat
  · rw [splitBetween?_of_isPeak isPeak]
    exact if_neg (within before middle after rfl isPeak)

/-- The recursion marks the positions that come out of the range of an interior. -/
theorem MarksBetween.splitsAt_iff (positive : 0 < tolerance)
    (isMarked : MarksBetween deviation tolerance first last interior marks) {outer rest : List κ}
    (whole : vertices = outer ++ first :: (interior ++ last :: rest)) (offset : Nat) :
    SplitsAt (Range.split? deviation tolerance vertices)
        ⟨outer.length, outer.length + 1 + interior.length⟩ (outer.length + 1 + offset) ↔
      marks[offset]? = some true := by
  induction isMarked generalizing outer rest offset with
  | whole within =>
      have split := split?_eq_map_splitBetween? positive deviation whole
      rw [splitBetween?_of_within positive within, Option.map_none] at split
      apply iff_of_false
      · exact not_splitsAt_of_eq_none split _
      · exact getElem?_map_false_ne _ offset
  | @split first middle last before after left right isPeak beyond leftMarks rightMarks
      leftIh rightIh =>
      have split := split?_eq_map_splitBetween? positive deviation whole
      rw [splitBetween?_of_isPeak isPeak, if_pos beyond, Option.map_some] at split
      have inside : outer.length < outer.length + 1 + before.length ∧
          outer.length + 1 + before.length <
            outer.length + 1 + (before ++ middle :: after).length := by
        rw [length_append_cons]
        omega
      have leftLength := leftMarks.length_eq
      -- A position before the middle can only come out of the left part and has its mark among
      -- those of the left half; likewise for one behind it.
      rcases Nat.lt_trichotomy offset before.length with earlier | rfl | later
      · have wholeLeft :
            vertices = outer ++ first :: (before ++ middle :: (after ++ last :: rest)) := by
          simp [whole]
        rw [splitsAt_iff_left split inside (Nat.add_lt_add_left earlier _),
          List.getElem?_append_left (leftLength ▸ earlier)]
        exact leftIh wholeLeft offset
      · apply iff_of_true
        · exact .here split inside
        · rw [← leftLength, List.getElem?_append_right le_rfl, Nat.sub_self,
            List.getElem?_cons_zero]
      · obtain ⟨further, rfl⟩ : ∃ further, offset = before.length + 1 + further :=
          Nat.exists_eq_add_of_le later
        have wholeRight :
            vertices = (outer ++ first :: before) ++ middle :: (after ++ last :: rest) := by
          simp [whole]
        have mark : (left ++ true :: right)[before.length + 1 + further]? = right[further]? := by
          rw [← leftLength, List.getElem?_append_right (by omega), Nat.add_assoc,
            Nat.add_sub_cancel_left, Nat.add_comm 1, List.getElem?_cons_succ]
        rw [splitsAt_iff_right split inside (Nat.add_lt_add_left later _), mark,
          ← rightIh wholeRight further]
        simp only [length_append_cons, Nat.add_assoc]

/-- The recursion marks the positions that thinning keeps. -/
theorem Marks.mem_keptPositions_iff (positive : 0 < tolerance)
    (isMarked : Marks deviation tolerance vertices marks) (position : Nat) :
    position ∈ keptPositions deviation tolerance vertices ↔ marks[position]? = some true := by
  cases isMarked with
  | single vertex =>
      rw [mem_keptPositions_singleton]
      cases position with
      | zero => simp
      | succ position => simp
  | @ends first last interior marks between =>
      have whole : first :: (interior ++ [last]) = [] ++ first :: (interior ++ last :: []) := rfl
      have splits := between.splitsAt_iff positive whole
      simp only [List.length_nil, Nat.zero_add, Nat.add_comm 1] at splits
      have length := between.length_eq
      rw [Simplify.mem_keptPositions_iff]
      cases position with
      | zero => simp
      | succ offset =>
          rw [splits, List.getElem?_cons_succ, or_iff_right (Nat.succ_ne_zero offset),
            Nat.add_right_cancel_iff, List.getElem?_append]
          by_cases earlier : offset < marks.length
          · rw [if_pos earlier, or_iff_right (by omega)]
          · rw [if_neg earlier, List.getElem?_eq_none (Nat.le_of_not_lt earlier),
              List.getElem?_singleton]
            simp
            omega

/-! ## One list of marks -/

theorem exists_marksBetween (positive : 0 < tolerance) (deviation : Segment κ → κ → δ)
    (first last : κ) (interior : List κ) :
    ∃ marks, MarksBetween deviation tolerance first last interior marks := by
  induction first, last, interior using thinBetween.induct deviation tolerance with
  | case1 first last interior found =>
      refine ⟨_, .whole ?_⟩
      rintro before middle after rfl isPeak beyond
      rw [splitBetween?_of_isPeak isPeak, if_pos beyond] at found
      contradiction
  | case2 first last interior before middle after found leftIh rightIh =>
      obtain ⟨isPeak, beyond⟩ := isPeak_of_splitBetween? positive found
      obtain ⟨left, leftMarks⟩ := leftIh
      obtain ⟨right, rightMarks⟩ := rightIh
      rw [eq_of_splitBetween? found]
      exact ⟨_, .split isPeak beyond leftMarks rightMarks⟩

/-- A list of vertices has two ends, or at most one vertex. -/
theorem exists_ends (vertices : List κ) :
    vertices = [] ∨ (∃ vertex, vertices = [vertex]) ∨
      ∃ first interior last, vertices = first :: (interior ++ [last]) := by
  cases vertices with
  | nil => exact Or.inl rfl
  | cons first rest =>
      rcases List.eq_nil_or_concat rest with rfl | ⟨interior, last, rfl⟩
      · exact Or.inr (Or.inl ⟨first, rfl⟩)
      · rw [List.concat_eq_append]
        exact Or.inr (Or.inr ⟨first, interior, last, rfl⟩)

/-- The recursion gives marks to every list with a vertex. -/
theorem exists_marks (positive : 0 < tolerance) (deviation : Segment κ → κ → δ)
    (nonempty : vertices ≠ []) : ∃ marks, Marks deviation tolerance vertices marks := by
  rcases exists_ends vertices with rfl | ⟨vertex, rfl⟩ | ⟨first, interior, last, rfl⟩
  · contradiction
  · exact ⟨_, .single vertex⟩
  · obtain ⟨marks, between⟩ := exists_marksBetween positive deviation first last interior
    exact ⟨_, .ends between⟩

/-- The recursion gives only one list of marks. -/
theorem Marks.unique (positive : 0 < tolerance)
    (isMarked : Marks deviation tolerance vertices marks)
    (alsoMarked : Marks deviation tolerance vertices other) : other = marks := by
  apply marks_ext (alsoMarked.length_eq.trans isMarked.length_eq.symm)
  intro position
  rw [← alsoMarked.mem_keptPositions_iff positive, isMarked.mem_keptPositions_iff positive]

/-! ## The marked vertices -/

/-- Thinning returns the vertices that the recursion marks. -/
theorem Marks.thin_eq_marked (positive : 0 < tolerance)
    (isMarked : Marks deviation tolerance vertices marks) :
    thin deviation tolerance vertices = marked vertices marks := by
  have same (position : Nat) :
      (keptPositions deviation tolerance vertices).contains (0 + position) = true ↔
        marks[position]? = some true := by
    rw [Nat.zero_add, List.contains_iff_mem, isMarked.mem_keptPositions_iff positive]
  exact map_filter_zipIdx_eq_marked isMarked.length_eq 0 same

theorem MarksBetween.thinBetween_eq_marked (positive : 0 < tolerance)
    (isMarked : MarksBetween deviation tolerance first last interior marks) :
    thinBetween deviation tolerance first last interior = marked interior marks := by
  induction isMarked with
  | whole within =>
      rw [marked_map_false]
      exact thinBetween_of_splitBetween?_eq_none (splitBetween?_of_within positive within)
  | split isPeak beyond leftMarks _ leftIh rightIh =>
      rw [thinBetween_of_isPeak isPeak beyond, marked_append leftMarks.length_eq, leftIh, rightIh]
      rfl

/-- Thinning keeps both ends, and between them what the recursion keeps. -/
theorem thin_eq_thinBetween (positive : 0 < tolerance) (deviation : Segment κ → κ → δ)
    (first last : κ) (interior : List κ) :
    thin deviation tolerance (first :: (interior ++ [last])) =
      first :: (thinBetween deviation tolerance first last interior ++ [last]) := by
  obtain ⟨marks, between⟩ := exists_marksBetween positive deviation first last interior
  rw [(Marks.ends between).thin_eq_marked positive, between.thinBetween_eq_marked positive]
  exact congrArg (first :: ·) (marked_append between.length_eq [last] [true])

/-- Working through the pending ranges gives the vertices that the recursion gives. -/
theorem thin_eq_thinRecursively (positive : 0 < tolerance) (deviation : Segment κ → κ → δ)
    (vertices : List κ) :
    thin deviation tolerance vertices = thinRecursively deviation tolerance vertices := by
  rcases exists_ends vertices with rfl | ⟨vertex, rfl⟩ | ⟨first, interior, last, rfl⟩
  · rfl
  · rw [thin_singleton, thinRecursively]
  · rw [thin_eq_thinBetween positive]
    cases interior with
    | nil => rfl
    | cons second interior =>
        rw [List.cons_append, thinRecursively]
        simp only [← List.cons_append, List.dropLast_concat, List.getLast_concat]

end Gazetteer.Simplify
