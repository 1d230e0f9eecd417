import Gazetteer.Proofs.Plane.Idempotence

/-!
# Two tolerances

Of two tolerances the greater one decides: thinning a line at the one and then at the other is
thinning it once at the greater.  Every range that splits at the greater tolerance splits at the
smaller one too, and at the same vertex, so what is kept at the greater tolerance is among what
is kept at the smaller.  Nothing is needed of the deviations but that they compare like numbers.
-/

namespace Gazetteer

namespace Simplify

variable {κ δ : Type}

/-- Where ranges split in one way, they split wherever they split in a finer way. -/
theorem SplitsAt.of_finer {split? finer? : Range → Option Nat} {range : Range} {position : Nat}
    (finer : ∀ {range middle}, split? range = some middle → finer? range = some middle)
    (splits : SplitsAt split? range position) : SplitsAt finer? range position := by
  induction splits with
  | here split inside => exact .here (finer split) inside
  | left split inside _ ih => exact .left (finer split) inside ih
  | right split inside _ ih => exact .right (finer split) inside ih

variable [Zero δ] [LT δ] [DecidableLT δ] {deviation : Segment κ → κ → δ} {smaller greater : δ}
  {vertices : List κ}

/-- A range that splits at a tolerance splits at the same vertex at any tolerance that all
deviations beyond it are beyond too. -/
theorem split?_of_beyond (beyond : ∀ {value : δ}, greater < value → smaller < value)
    {range : Range} {middle : Nat}
    (split : Range.split? deviation greater vertices range = some middle) :
    Range.split? deviation smaller vertices range = some middle := by
  unfold Range.split? at split ⊢
  split at split
  · obtain ⟨above, same⟩ := Option.ite_none_right_eq_some.mp split
    exact Option.ite_none_right_eq_some.mpr ⟨beyond above, same⟩
  · contradiction

/-- What is kept at a tolerance is kept at any tolerance that all deviations beyond it are
beyond too. -/
theorem keptPositions_subset_of_beyond (beyond : ∀ {value : δ}, greater < value → smaller < value)
    (deviation : Segment κ → κ → δ) (vertices : List κ) :
    keptPositions deviation greater vertices ⊆ keptPositions deviation smaller vertices := by
  intro position kept
  rcases mem_drain_iff.mp kept with isEnd | ⟨range, pending, splits⟩
  · exact mem_drain_iff.mpr (Or.inl isEnd)
  · exact mem_drain_iff.mpr
      (Or.inr ⟨range, pending, splits.of_finer fun split => split?_of_beyond beyond split⟩)

end Simplify

theorem tolerance?_of_pos {K : Type} [Scalar K] {number : K}
    (finite : Scalar.isFinite number = true) (positive : 0 < number) :
    tolerance? number = some number :=
  if_pos (Bool.and_eq_true_iff.mpr ⟨finite, decide_eq_true positive⟩)

namespace Gauge

variable {κ : Type} [BEq κ]

/-- Simplifying a line at one tolerance and then at another is simplifying it once at the
greater of the two, and the vertices that are kept at the greater one are kept at both. -/
theorem simplify_line_again (gauge : Gauge κ Float) (first second : Float)
    (firstFinite : Scalar.isFinite first = true) (firstPositive : 0 < first)
    (secondFinite : Scalar.isFinite second = true) (secondPositive : 0 < second)
    (vertices : List κ) :
    let greater := Scalar.greatest first second
    gauge.simplify (tolerance? second) (gauge.simplify (tolerance? first) (.line vertices)) =
        gauge.simplify (tolerance? greater) (.line vertices) ∧
      Simplify.keptPositions gauge.deviation greater vertices ⊆
        Simplify.keptPositions gauge.deviation first vertices ∧
      Simplify.keptPositions gauge.deviation greater vertices ⊆
        Simplify.keptPositions gauge.deviation second vertices := by
  intro greater
  have beyond : ∀ {value : Float}, greater < value ↔ first < value ∧ second < value :=
    FloatingOrder.greater_lt_iff (Or.inr secondPositive)
  have positive : 0 < greater := by
    unfold greater Scalar.greatest
    split <;> assumption
  have finite : Scalar.isFinite greater = true := by
    unfold greater Scalar.greatest
    split <;> assumption
  refine ⟨?_, ?_, ?_⟩
  · rw [tolerance?_of_pos firstFinite firstPositive, tolerance?_of_pos secondFinite secondPositive,
      tolerance?_of_pos finite positive]
    simp only [simplify, simplifyLine_eq_thin gauge firstPositive,
      simplifyLine_eq_thin gauge secondPositive, simplifyLine_eq_thin gauge positive]
    exact congrArg Geometry.line
      (Simplify.thin_thin firstPositive secondPositive gauge.deviation vertices)
  · exact Simplify.keptPositions_subset_of_beyond (fun above => (beyond.mp above).1) _ _
  · exact Simplify.keptPositions_subset_of_beyond (fun above => (beyond.mp above).2) _ _

/-- A path with a slight and a wide bend. -/
def bentPath : List (Coord Float) :=
  [⟨0, 0⟩, ⟨1, 0.1⟩, ⟨2, 0⟩, ⟨3, 1⟩, ⟨4, 0⟩]

theorem simplify_line_again_bentPath :
    Scalar.isFinite (0.05 : Float) = true ∧ (0 : Float) < 0.05 ∧
      Scalar.isFinite (0.5 : Float) = true ∧ (0 : Float) < 0.5 ∧
      (plane Float).simplify (tolerance? 0.5)
          ((plane Float).simplify (tolerance? 0.05) (.line bentPath)) =
        (plane Float).simplify (tolerance? (Scalar.greatest 0.05 0.5)) (.line bentPath) := by
  have smallFinite : Scalar.isFinite (0.05 : Float) = true := by decide +kernel
  have smallPositive : (0 : Float) < 0.05 := by decide +kernel
  have largeFinite : Scalar.isFinite (0.5 : Float) = true := by decide +kernel
  have largePositive : (0 : Float) < 0.5 := by decide +kernel
  exact ⟨smallFinite, smallPositive, largeFinite, largePositive,
    (simplify_line_again (plane Float) 0.05 0.5 smallFinite smallPositive largeFinite
      largePositive bentPath).1⟩

end Gauge

end Gazetteer
