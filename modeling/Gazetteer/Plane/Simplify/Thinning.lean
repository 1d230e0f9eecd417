import Gazetteer.Plane.Shape

/-!
# Thinning a list of vertices

A list of vertices is thinned by keeping both ends and, between two kept vertices, the
first of those that deviate most from the segment joining them, as long as it deviates by
more than a tolerance.

The rule is given twice.  `thin` works through a list of pending ranges of positions and
collects the positions that are kept.  `thinBetween` is the recursion behind it: keep the
vertex that deviates most and go on with both halves.  Deviations may be of any type with
a zero and an order, and come from any function.
-/

namespace Gazetteer.Simplify

variable {κ δ : Type} [Zero δ] [LT δ] [DecidableLT δ]

/-- The position of the first vertex that deviates most, and its deviation.  `best` is
what was found before position `position`. -/
def peak (deviation : κ → δ) : (vertices : List κ) → (position : Nat) → (best : Nat × δ) → Nat × δ
  | [], _, best => best
  | vertex :: rest, position, best =>
    let here := deviation vertex
    peak deviation rest (position + 1) (if best.2 < here then (position, here) else best)

/-! ## The list of pending ranges -/

/-- The positions from `first` to `last` in a list of vertices. -/
structure Range where
  first : Nat
  last : Nat
deriving DecidableEq, Repr

namespace Range

/-- A bound for the ranges that can still come out of one. -/
def weight (range : Range) : Nat :=
  2 * (range.last - range.first - 1) + 1

/-- A bound for the ranges that can still come out of some. -/
def totalWeight : List Range → Nat
  | [] => 0
  | range :: rest => range.weight + totalWeight rest

/-- The vertices strictly between the ends of a range. -/
def interior (range : Range) (vertices : List κ) : List κ :=
  (vertices.drop (range.first + 1)).take (range.last - range.first - 1)

/-- Where a range is split: at the vertex that deviates most from the segment between its
ends, if that is more than the tolerance. -/
def split? (deviation : Segment κ → κ → δ) (tolerance : δ) (vertices : List κ)
    (range : Range) : Option Nat :=
  match vertices[range.first]?, vertices[range.last]? with
  | some first, some last =>
    let best := peak (deviation ⟨first, last⟩) (range.interior vertices) (range.first + 1)
      (range.first, 0)
    if tolerance < best.2 then some best.1 else none
  | _, _ => none

end Range

/-- Work through the pending ranges, the last one pushed first, and collect the positions
at which they are split. -/
def drain (split? : Range → Option Nat) : (pending : List Range) → (kept : List Nat) → List Nat
  | [], kept => kept
  | range :: pending, kept =>
    match split? range with
    | none => drain split? pending kept
    | some middle =>
      if range.first < middle ∧ middle < range.last then
        drain split? (⟨middle, range.last⟩ :: ⟨range.first, middle⟩ :: pending) (middle :: kept)
      else drain split? pending kept
termination_by pending => Range.totalWeight pending
decreasing_by all_goals (simp [Range.totalWeight, Range.weight]; try omega)

/-- The positions that thinning keeps. -/
def keptPositions (deviation : Segment κ → κ → δ) (tolerance : δ) (vertices : List κ) : List Nat :=
  let last := vertices.length - 1
  drain (Range.split? deviation tolerance vertices) [⟨0, last⟩] [last, 0]

/-- Thin a list of vertices. -/
def thin (deviation : Segment κ → κ → δ) (tolerance : δ) (vertices : List κ) : List κ :=
  let kept := keptPositions deviation tolerance vertices
  (vertices.zipIdx.filter fun (_, position) => kept.contains position).map Prod.fst

/-! ## The recursion -/

/-- What is before a position, at it and after it. -/
def cutAt? (vertices : List κ) (position : Nat) : Option (List κ × κ × List κ) :=
  match vertices.drop position with
  | [] => none
  | middle :: after => some (vertices.take position, middle, after)

/-- A cut takes nothing away. -/
theorem eq_of_cutAt? {vertices before after : List κ} {middle : κ} {position : Nat}
    (cut : cutAt? vertices position = some (before, middle, after)) :
    vertices = before ++ middle :: after := by
  unfold cutAt? at cut
  split at cut
  · simp at cut
  · rename_i found
    simp only [Option.some.injEq, Prod.mk.injEq] at cut
    obtain ⟨rfl, rfl, rfl⟩ := cut
    rw [← found, List.take_append_drop]

/-- The vertices before, at and after the place where the interior between two kept
vertices is split. -/
def splitBetween? (deviation : Segment κ → κ → δ) (tolerance : δ) (first last : κ)
    (interior : List κ) : Option (List κ × κ × List κ) :=
  let best := peak (deviation ⟨first, last⟩) interior 0 (interior.length, 0)
  if tolerance < best.2 then cutAt? interior best.1 else none

/-- A split takes nothing away. -/
theorem eq_of_splitBetween? {deviation : Segment κ → κ → δ} {tolerance : δ}
    {first last middle : κ} {interior before after : List κ}
    (split : splitBetween? deviation tolerance first last interior =
      some (before, middle, after)) :
    interior = before ++ middle :: after := by
  simp only [splitBetween?, Option.ite_none_right_eq_some] at split
  exact eq_of_cutAt? split.2

/-- The vertices that are kept strictly between two kept ones. -/
def thinBetween (deviation : Segment κ → κ → δ) (tolerance : δ) (first last : κ)
    (interior : List κ) : List κ :=
  match _found : splitBetween? deviation tolerance first last interior with
  | none => []
  | some (before, middle, after) =>
    thinBetween deviation tolerance first middle before ++
      middle :: thinBetween deviation tolerance middle last after
termination_by interior.length
decreasing_by all_goals (rw [eq_of_splitBetween? _found]; simp; try omega)

/-- Thinning by recursion. -/
def thinRecursively (deviation : Segment κ → κ → δ) (tolerance : δ) : List κ → List κ
  | [] => []
  | [vertex] => [vertex]
  | first :: second :: rest =>
    let last := (second :: rest).getLast (by simp)
    first :: thinBetween deviation tolerance first last ((second :: rest).dropLast) ++ [last]

end Gazetteer.Simplify
