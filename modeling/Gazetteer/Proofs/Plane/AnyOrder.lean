import Gazetteer.Plane.Simplify
import Gazetteer.Proofs.Plane.Recursion
import Mathlib.Algebra.BigOperators.Group.Multiset.Basic

/-!
# Any order of the pending ranges

The loop behind thinning takes up one pending range after the other and marks the vertices that
are kept.  Here it is a system of steps in which any pending range may come next, nothing checks
that a range is split between its ends, and a position outside the list makes a pass fail.  No
pass ever fails, no order of the ranges goes on for ever, and all of them end with the marks of
the recursion.

One invariant carries this: the positions that thinning keeps are those that are marked and
those at which a pending range is still to be split.  A pass moves one position from the second
kind to the first, and what it does depends on no other pending range.
-/

namespace Gazetteer.Simplify

/-! ## The loop -/

/-- Mark a position, which has to be one of the list. -/
def mark? (marks : List Bool) (position : Nat) : Option (List Bool) :=
  if position < marks.length then some (marks.set position true) else none

theorem mark?_of_lt {marks : List Bool} {position : Nat} (inside : position < marks.length) :
    mark? marks position = some (marks.set position true) :=
  if_pos inside

/-- Setting a mark marks one more position. -/
theorem getElem?_set_eq_some_true_iff {marks : List Bool} {middle : Nat}
    (inside : middle < marks.length) (position : Nat) :
    (marks.set middle true)[position]? = some true ↔
      position = middle ∨ marks[position]? = some true := by
  by_cases same : position = middle
  · rw [same, List.getElem?_set_self inside]
    exact iff_of_true rfl (Or.inl rfl)
  · rw [List.getElem?_set_ne (Ne.symm same), or_iff_right same]

/-- Where the loop stands: the ranges that are pending, in no order, and a mark for each
vertex. -/
structure Progress where
  pending : Multiset Range
  marks : List Bool

/-- Where the loop starts: both ends are marked, and the range between them is pending. -/
def Progress.initial? {κ : Type} (vertices : List κ) : Option Progress := do
  let marks ← mark? (vertices.map fun _ => false) 0
  let marks ← mark? marks (vertices.length - 1)
  return ⟨{⟨0, vertices.length - 1⟩}, marks⟩

/-- A bound for the passes that can still come out of pending ranges. -/
def pendingWeight (pending : Multiset Range) : Nat :=
  (pending.map Range.weight).sum

@[simp] theorem pendingWeight_zero : pendingWeight 0 = 0 :=
  rfl

@[simp] theorem pendingWeight_cons (range : Range) (others : Multiset Range) :
    pendingWeight (range ::ₘ others) = range.weight + pendingWeight others := by
  simp [pendingWeight]

variable {κ δ : Type} [Zero δ] [LT δ] [DecidableLT δ]

/-- A pass of the loop: the ranges that take the place of a pending one, and the marks after
it.  It fails at a position outside the list. -/
def Range.pass? (deviation : Segment κ → κ → δ) (tolerance : δ) (vertices : List κ)
    (range : Range) (marks : List Bool) : Option (Multiset Range × List Bool) :=
  if range.last ≤ range.first + 1 then some (0, marks)
  else do
    let first ← vertices[range.first]?
    let last ← vertices[range.last]?
    let best := peak (deviation ⟨first, last⟩) (range.interior vertices) (range.first + 1)
      (range.first, 0)
    if tolerance < best.2 then
      let marks ← mark? marks best.1
      return ({⟨best.1, range.last⟩, ⟨range.first, best.1⟩}, marks)
    else return (0, marks)

/-- A step of the loop, which takes up any of the pending ranges. -/
inductive Step (deviation : Segment κ → κ → δ) (tolerance : δ) (vertices : List κ) :
    Progress → Progress → Prop where
  | takeUp {range : Range} {others parts : Multiset Range} {marks after : List Bool}
      (pass : range.pass? deviation tolerance vertices marks = some (parts, after)) :
      Step deviation tolerance vertices ⟨range ::ₘ others, marks⟩ ⟨parts + others, after⟩

/-- A run of the loop with its number of steps. -/
inductive Run (deviation : Segment κ → κ → δ) (tolerance : δ) (vertices : List κ) :
    Nat → Progress → Progress → Prop where
  | refl (progress : Progress) : Run deviation tolerance vertices 0 progress progress
  | step {count : Nat} {start next final : Progress}
      (step : Step deviation tolerance vertices start next)
      (further : Run deviation tolerance vertices count next final) :
      Run deviation tolerance vertices (count + 1) start final

variable {deviation : Segment κ → κ → δ} {tolerance : δ} {vertices : List κ} {range : Range}
  {others : Multiset Range} {marks : List Bool} {middle : Nat}

/-! ## The invariant -/

/-- What holds wherever the loop stands: every vertex has a mark, the ends of the pending ranges
are positions of the list, and the positions that thinning keeps are those that are marked and
those that come out of a pending range. -/
structure Progress.Sound (deviation : Segment κ → κ → δ) (tolerance : δ) (vertices : List κ)
    (progress : Progress) : Prop where
  length : progress.marks.length = vertices.length
  inside : ∀ range ∈ progress.pending,
    range.first < vertices.length ∧ range.last < vertices.length
  kept : ∀ position, position ∈ keptPositions deviation tolerance vertices ↔
    progress.marks[position]? = some true ∨ ∃ range ∈ progress.pending,
      SplitsAt (Range.split? deviation tolerance vertices) range position

namespace Progress.Sound

/-- A range that is not split can be dropped. -/
theorem drop (sound : Sound deviation tolerance vertices ⟨range ::ₘ others, marks⟩)
    (whole : range.split? deviation tolerance vertices = none) :
    Sound deviation tolerance vertices ⟨others, marks⟩ := by
  refine ⟨sound.length, ?_, ?_⟩
  · intro other member
    exact sound.inside other (Multiset.mem_cons_of_mem member)
  · intro position
    rw [sound.kept position]
    simp only [Multiset.mem_cons, exists_eq_or_imp,
      or_iff_right (not_splitsAt_of_eq_none whole position)]

/-- A range that is split makes room for its parts once the middle is marked. -/
theorem divide (sound : Sound deviation tolerance vertices ⟨range ::ₘ others, marks⟩)
    (split : range.split? deviation tolerance vertices = some middle)
    (between : range.first < middle ∧ middle < range.last) :
    Sound deviation tolerance vertices
      ⟨⟨middle, range.last⟩ ::ₘ ⟨range.first, middle⟩ ::ₘ others, marks.set middle true⟩ := by
  obtain ⟨first, last⟩ := sound.inside range (Multiset.mem_cons_self range others)
  have isPosition : middle < vertices.length := between.2.trans last
  refine ⟨?_, ?_, ?_⟩
  · rw [List.length_set]
    exact sound.length
  · simp only [Multiset.forall_mem_cons]
    refine ⟨⟨isPosition, last⟩, ⟨first, isPosition⟩, ?_⟩
    intro other member
    exact sound.inside other (Multiset.mem_cons_of_mem member)
  · -- What comes out of the range is the middle, which has its mark now, or comes out of a part.
    intro position
    have isMark : middle < marks.length := sound.length ▸ isPosition
    rw [sound.kept position]
    simp only [Multiset.mem_cons, exists_eq_or_imp, splitsAt_iff split between,
      getElem?_set_eq_some_true_iff isMark]
    tauto

end Progress.Sound

/-! ## Passes -/

section Passes

variable [FloatingOrder δ]

/-- Where a range is split, it is split between its ends. -/
theorem between_of_split? (positive : 0 < tolerance)
    (split : range.split? deviation tolerance vertices = some middle) :
    range.first < middle ∧ middle < range.last := by
  unfold Range.split? at split
  split at split
  · rename_i first last _ _
    have short : (range.interior vertices).length ≤ range.last - range.first - 1 :=
      List.length_take_le _ _
    obtain ⟨beyond, same⟩ := Option.ite_none_right_eq_some.mp split
    rcases flat_or_isPeak (deviation ⟨first, last⟩) 0 (range.interior vertices) with
      flat | ⟨before, peak, after, whole, isPeak⟩
    · -- Where nothing deviates the search returns what it started from, which is zero.
      rw [peak_of_flat flat] at beyond
      exact absurd beyond (FloatingOrder.asymm positive)
    · rw [whole, length_append_cons] at short
      rw [whole, peak_of_isPeak isPeak] at same
      obtain rfl := Option.some.inj same
      dsimp only
      omega
  · contradiction

/-- A pass with a range whose ends are in the list does not fail.  It splits the range where
thinning splits it, and drops a range that thinning does not split. -/
theorem Range.pass?_eq (positive : 0 < tolerance) (deviation : Segment κ → κ → δ)
    (length : marks.length = vertices.length)
    (ends : range.first < vertices.length ∧ range.last < vertices.length) :
    range.pass? deviation tolerance vertices marks =
      some (match range.split? deviation tolerance vertices with
        | none => (0, marks)
        | some middle =>
            ({⟨middle, range.last⟩, ⟨range.first, middle⟩}, marks.set middle true)) := by
  have isFirst := List.getElem?_eq_getElem ends.1
  have isLast := List.getElem?_eq_getElem ends.2
  let best := peak (deviation ⟨vertices[range.first], vertices[range.last]⟩)
    (range.interior vertices) (range.first + 1) (range.first, 0)
  have splits : range.split? deviation tolerance vertices =
      if tolerance < best.2 then some best.1 else none := by
    rw [Range.split?, isFirst, isLast]
  by_cases beyond : tolerance < best.2
  · rw [if_pos beyond] at splits
    have between := between_of_split? positive splits
    have long : ¬ range.last ≤ range.first + 1 := by omega
    have isMark : best.1 < marks.length := length ▸ between.2.trans ends.2
    rw [splits, Range.pass?, if_neg long, isFirst, isLast]
    simp only [Option.bind_eq_bind, Option.bind_some]
    rw [if_pos beyond, mark?_of_lt isMark]
    rfl
  · rw [if_neg beyond] at splits
    rw [splits, Range.pass?, isFirst, isLast]
    simp only [Option.bind_eq_bind, Option.bind_some]
    rw [if_neg beyond]
    exact ite_self _

/-- A pending range that is not split can be taken up and dropped. -/
theorem Progress.Sound.step_of_whole (positive : 0 < tolerance)
    (sound : Sound deviation tolerance vertices ⟨range ::ₘ others, marks⟩)
    (whole : range.split? deviation tolerance vertices = none) :
    Step deviation tolerance vertices ⟨range ::ₘ others, marks⟩ ⟨others, marks⟩ := by
  have ends := sound.inside range (Multiset.mem_cons_self range others)
  have pass := Range.pass?_eq positive deviation sound.length ends
  rw [whole] at pass
  have step : Step deviation tolerance vertices ⟨range ::ₘ others, marks⟩
      ⟨0 + others, marks⟩ := .takeUp pass
  rwa [Multiset.zero_add] at step

/-- A pending range that is split can be taken up and makes room for its parts. -/
theorem Progress.Sound.step_of_split (positive : 0 < tolerance)
    (sound : Sound deviation tolerance vertices ⟨range ::ₘ others, marks⟩)
    (split : range.split? deviation tolerance vertices = some middle) :
    Step deviation tolerance vertices ⟨range ::ₘ others, marks⟩
      ⟨⟨middle, range.last⟩ ::ₘ ⟨range.first, middle⟩ ::ₘ others, marks.set middle true⟩ := by
  have ends := sound.inside range (Multiset.mem_cons_self range others)
  have pass := Range.pass?_eq positive deviation sound.length ends
  rw [split] at pass
  have step : Step deviation tolerance vertices ⟨range ::ₘ others, marks⟩
      ⟨{⟨middle, range.last⟩, ⟨range.first, middle⟩} + others, marks.set middle true⟩ :=
    .takeUp pass
  rwa [Multiset.insert_eq_cons, Multiset.cons_add, Multiset.singleton_add] at step

end Passes

/-! ## Runs -/

section Runs

variable [FloatingOrder δ] {start final : Progress} {count : Nat}

/-- A step keeps the invariant and leaves less to do. -/
theorem Step.sound (positive : 0 < tolerance) (sound : start.Sound deviation tolerance vertices)
    (step : Step deviation tolerance vertices start final) :
    final.Sound deviation tolerance vertices ∧
      pendingWeight final.pending < pendingWeight start.pending := by
  cases step with
  | @takeUp range others parts marks after pass =>
      have ends := sound.inside range (Multiset.mem_cons_self range others)
      have made := Range.pass?_eq positive deviation sound.length ends
      rw [pass, Option.some.injEq] at made
      cases split : range.split? deviation tolerance vertices with
      | none =>
          rw [split] at made
          obtain ⟨rfl, rfl⟩ := Prod.mk.inj made
          rw [Multiset.zero_add]
          refine ⟨sound.drop split, ?_⟩
          simp only [pendingWeight_cons, Range.weight]
          omega
      | some middle =>
          rw [split] at made
          obtain ⟨rfl, rfl⟩ := Prod.mk.inj made
          have between := between_of_split? positive split
          rw [Multiset.insert_eq_cons, Multiset.cons_add, Multiset.singleton_add]
          refine ⟨sound.divide split between, ?_⟩
          simp only [pendingWeight_cons, Range.weight]
          omega

/-- A run keeps the invariant and has no more steps than there is to do. -/
theorem Run.sound (positive : 0 < tolerance) (sound : start.Sound deviation tolerance vertices)
    (run : Run deviation tolerance vertices count start final) :
    final.Sound deviation tolerance vertices ∧
      count + pendingWeight final.pending ≤ pendingWeight start.pending := by
  induction run with
  | refl progress => exact ⟨sound, (Nat.zero_add _).le⟩
  | step step _ ih =>
      obtain ⟨nextSound, less⟩ := step.sound positive sound
      obtain ⟨finalSound, fewer⟩ := ih nextSound
      exact ⟨finalSound, by omega⟩

/-- Where no range is pending any more, the marks are those of the recursion. -/
theorem Progress.Sound.eq_of_pending_eq_zero {progress : Progress} (positive : 0 < tolerance)
    (sound : progress.Sound deviation tolerance vertices) (done : progress.pending = 0)
    (isMarked : Marks deviation tolerance vertices marks) : progress.marks = marks := by
  apply marks_ext (sound.length.trans isMarked.length_eq.symm)
  intro position
  rw [← isMarked.mem_keptPositions_iff positive, sound.kept position, done]
  simp

/-- Taking up the range that was pushed last is a run, and it marks what `drain` collects. -/
theorem exists_run_drain (positive : 0 < tolerance) {pending : List Range} {kept : List Nat}
    (sound : Progress.Sound deviation tolerance vertices ⟨↑pending, marks⟩)
    (marked : ∀ position, position ∈ kept ↔ marks[position]? = some true) :
    ∃ count after, Run deviation tolerance vertices count ⟨↑pending, marks⟩ ⟨0, after⟩ ∧
      ∀ position, position ∈ drain (Range.split? deviation tolerance vertices) pending kept ↔
        after[position]? = some true := by
  fun_induction drain (Range.split? deviation tolerance vertices) pending kept
      generalizing marks with
  | case1 kept => exact ⟨0, marks, .refl _, marked⟩
  | case2 range pending kept whole ih =>
      rw [← Multiset.cons_coe] at sound ⊢
      obtain ⟨count, after, run, collected⟩ := ih (sound.drop whole) marked
      exact ⟨count + 1, after, .step (sound.step_of_whole positive whole) run, collected⟩
  | case3 range pending kept middle split between ih =>
      rw [← Multiset.cons_coe] at sound ⊢
      have ends := sound.inside range (Multiset.mem_cons_self range ↑pending)
      have isMark : middle < marks.length := sound.length ▸ between.2.trans ends.2
      have nextMarked (position : Nat) :
          position ∈ middle :: kept ↔ (marks.set middle true)[position]? = some true := by
        rw [List.mem_cons, marked position, getElem?_set_eq_some_true_iff isMark]
      obtain ⟨count, after, run, collected⟩ := ih (sound.divide split between) nextMarked
      exact ⟨count + 1, after, .step (sound.step_of_split positive split) run, collected⟩
  | case4 range pending kept middle split outside ih =>
      -- `drain` checks that a range is split between its ends, and it always is.
      exact absurd (between_of_split? positive split) outside

end Runs

/-! ## The start -/

/-- The marks of the two ends of a list. -/
def endMarks (vertices : List κ) : List Bool :=
  ((vertices.map fun _ => false).set 0 true).set (vertices.length - 1) true

theorem length_endMarks (vertices : List κ) : (endMarks vertices).length = vertices.length := by
  simp [endMarks]

theorem endMarks_getElem?_iff (nonempty : vertices ≠ []) (position : Nat) :
    (endMarks vertices)[position]? = some true ↔ position ∈ [vertices.length - 1, 0] := by
  have isFirst : 0 < vertices.length := List.length_pos_iff.mpr nonempty
  have isLast : vertices.length - 1 < vertices.length := Nat.sub_one_lt isFirst.ne'
  rw [endMarks, getElem?_set_eq_some_true_iff (by simpa using isLast),
    getElem?_set_eq_some_true_iff (by simpa using isFirst),
    or_iff_left (getElem?_map_false_ne vertices position), List.mem_cons, List.mem_singleton]

/-- The loop starts for every list with a vertex. -/
theorem initial?_eq (nonempty : vertices ≠ []) :
    Progress.initial? vertices = some ⟨{⟨0, vertices.length - 1⟩}, endMarks vertices⟩ := by
  have isFirst : 0 < vertices.length := List.length_pos_iff.mpr nonempty
  have isLast : vertices.length - 1 < vertices.length := Nat.sub_one_lt isFirst.ne'
  rw [Progress.initial?, mark?_of_lt (by simpa using isFirst), Option.bind_eq_bind,
    Option.bind_some, mark?_of_lt (by simpa using isLast)]
  rfl

/-- The invariant holds where the loop starts. -/
theorem sound_initial (deviation : Segment κ → κ → δ) (tolerance : δ) (nonempty : vertices ≠ []) :
    Progress.Sound deviation tolerance vertices
      ⟨{⟨0, vertices.length - 1⟩}, endMarks vertices⟩ := by
  have isFirst : 0 < vertices.length := List.length_pos_iff.mpr nonempty
  refine ⟨length_endMarks vertices, ?_, ?_⟩
  · intro range member
    obtain rfl := Multiset.mem_singleton.mp member
    exact ⟨isFirst, Nat.sub_one_lt isFirst.ne'⟩
  · intro position
    rw [endMarks_getElem?_iff nonempty, keptPositions, mem_drain_iff]
    simp only [Multiset.mem_singleton, List.mem_singleton]

theorem pendingWeight_whole (length : Nat) :
    pendingWeight {⟨0, length - 1⟩} = 2 * (length - 2) + 1 := by
  rw [← Multiset.cons_zero, pendingWeight_cons, pendingWeight_zero, Nat.add_zero, Range.weight]
  dsimp only
  omega

/-- For a positive tolerance and whatever the deviations, the recursion gives a list with a
vertex exactly one list of marks.  Thinning returns the vertices that are marked, and its list of
pending ranges collects their positions.  In whatever order the loop takes up the pending ranges,
it makes at most one more than twice as many passes as there are vertices between the ends, it
never uses a position outside the list, and where no range is pending any more it has given the
marks of the recursion. -/
theorem thin_in_any_order [FloatingOrder δ] (deviation : Segment κ → κ → δ) (tolerance : δ)
    (positive : 0 < tolerance) (vertices : List κ) (nonempty : vertices ≠ []) :
    ∃ marks, (∀ other, Marks deviation tolerance vertices other ↔ other = marks) ∧
      thin deviation tolerance vertices = marked vertices marks ∧
      thin deviation tolerance vertices = thinRecursively deviation tolerance vertices ∧
      (∀ position, position ∈ keptPositions deviation tolerance vertices ↔
        marks[position]? = some true) ∧
      ∃ start, Progress.initial? vertices = some start ∧
        (∃ count, Run deviation tolerance vertices count start ⟨0, marks⟩) ∧
        ∀ count progress, Run deviation tolerance vertices count start progress →
          count ≤ 2 * (vertices.length - 2) + 1 ∧
            (∀ range ∈ progress.pending,
              range.pass? deviation tolerance vertices progress.marks ≠ none) ∧
            (progress.pending = 0 → progress.marks = marks) := by
  have sound : Progress.Sound deviation tolerance vertices
      ⟨↑[(⟨0, vertices.length - 1⟩ : Range)], endMarks vertices⟩ :=
    sound_initial deviation tolerance nonempty
  obtain ⟨marks, isMarked⟩ := exists_marks positive deviation nonempty
  obtain ⟨count, after, run, collected⟩ := exists_run_drain positive sound
    fun position => (endMarks_getElem?_iff nonempty position).symm
  obtain rfl := (run.sound positive sound).1.eq_of_pending_eq_zero positive rfl isMarked
  refine ⟨after, ?_, isMarked.thin_eq_marked positive,
    thin_eq_thinRecursively positive deviation vertices, collected, _, initial?_eq nonempty,
    ⟨count, run⟩, ?_⟩
  · intro other
    exact ⟨isMarked.unique positive, fun same => same ▸ isMarked⟩
  · intro count progress run
    obtain ⟨finalSound, fewer⟩ := run.sound positive sound
    refine ⟨?_, ?_, ?_⟩
    · rw [← pendingWeight_whole]
      exact (Nat.le_add_right _ _).trans fewer
    · intro range member
      rw [Range.pass?_eq positive deviation finalSound.length (finalSound.inside range member)]
      exact Option.some_ne_none _
    · intro done
      exact finalSound.eq_of_pending_eq_zero positive done isMarked

/-- A path that comes back to its second vertex, which is kept once and left out once. -/
def hairpin : List (Coord Float) :=
  [⟨0, 0⟩, ⟨2, 1⟩, ⟨2, 0⟩, ⟨2, 1⟩, ⟨4, 0⟩]

theorem thin_in_any_order_hairpin :
    (0 : Float) < 0.95 ∧ hairpin ≠ [] ∧
      thin (Gauge.plane Float).deviation 0.95 hairpin =
        marked hairpin [true, true, false, false, true] ∧
      ∃ start, Progress.initial? hairpin = some start ∧
        ∀ count progress, Run (Gauge.plane Float).deviation 0.95 hairpin count start progress →
          count ≤ 7 ∧
            (∀ range ∈ progress.pending,
              range.pass? (Gauge.plane Float).deviation 0.95 hairpin progress.marks ≠ none) ∧
            (progress.pending = 0 → progress.marks = [true, true, false, false, true]) := by
  have positive : (0 : Float) < 0.95 := by decide +kernel
  have nonempty : hairpin ≠ [] := List.cons_ne_nil _ _
  obtain ⟨marks, isMarked, returned, _, positions, start, isStart, _, runs⟩ :=
    thin_in_any_order (Gauge.plane Float).deviation 0.95 positive hairpin nonempty
  have kept : keptPositions (Gauge.plane Float).deviation 0.95 hairpin = [1, 4, 0] := by
    decide +kernel
  have same : marks = [true, true, false, false, true] := by
    apply marks_ext ((isMarked marks).mpr rfl).length_eq
    intro position
    rw [← positions, kept]
    match position with
    | 0 | 1 | 2 | 3 | 4 => decide
    | position + 5 => simp
  subst same
  exact ⟨positive, nonempty, returned, start, isStart, runs⟩

end Gazetteer.Simplify
