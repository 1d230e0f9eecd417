import Gazetteer.Proofs.Plane.Segments

/-!
# Simple rings

A closed ring is simple if its sides meet only where they are neighbours, and then only in the
vertex that they share.  Simplification looks at sides that are not neighbours only.  With four
sides or more that is enough: where neighbours overlap, the side behind them begins on the side
before them.  A ring of three sides has no others, so it may be flat.
-/

namespace Gazetteer

section Sides

variable {κ : Type}

theorem getElem?_segments {vertices : List κ} {i : Nat} {side : Segment κ} :
    (segments vertices)[i]? = some side ↔
      vertices[i]? = some side.start ∧ vertices[i + 1]? = some side.stop := by
  induction vertices generalizing i with
  | nil => simp [segments]
  | cons first rest ih =>
      cases rest with
      | nil => simp [segments]
      | cons second rest =>
          cases i with
          | zero =>
              obtain ⟨start, stop⟩ := side
              simp [segments]
          | succ i => simpa [segments] using ih (i := i)

theorem mem_drop_one_iff {sides : List κ} {side : κ} :
    side ∈ sides.drop 1 ↔ ∃ k, sides[k + 1]? = some side := by
  simp only [List.mem_iff_getElem?, List.getElem?_drop, Nat.add_comm 1]

theorem mem_dropLast_drop_one_iff {sides : List κ} {side : κ} :
    side ∈ (sides.drop 1).dropLast ↔
      ∃ k, k + 2 < sides.length ∧ sides[k + 1]? = some side := by
  simp only [List.mem_iff_getElem?, List.getElem?_dropLast, List.length_drop,
    Option.ite_none_right_eq_some, List.getElem?_drop, Nat.add_comm 1]
  exact exists_congr fun k => and_congr_left' (by omega)

variable {δ : Type}

/-- Of the sides of a list, the first meets none that is not its neighbour. -/
theorem Gauge.distantMeet_eq_false_iff (gauge : Gauge κ δ) {sides : List (Segment κ)} :
    gauge.distantMeet sides = false ↔
      ∀ i j first second, i + 2 ≤ j → sides[i]? = some first → sides[j]? = some second →
        gauge.meets first second = false := by
  induction sides with
  | nil => simp [distantMeet]
  | cons side rest ih =>
      simp only [distantMeet, Bool.or_eq_false_iff, ih, List.any_eq_false, mem_drop_one_iff,
        Bool.not_eq_true]
      constructor
      · rintro ⟨here, later⟩ i j first second distant isFirst isSecond
        obtain ⟨j, rfl⟩ := Nat.exists_eq_add_of_le' (Nat.le_of_add_left_le distant)
        cases i with
        | zero =>
            obtain rfl : side = first := by simpa using isFirst
            exact here second ⟨j, isSecond⟩
        | succ i => exact later i (j + 1) first second (by omega) isFirst isSecond
      · intro all
        constructor
        · rintro second ⟨k, isSecond⟩
          exact all 0 (k + 2) side second (by omega) rfl isSecond
        · intro i j first second distant isFirst isSecond
          exact all (i + 1) (j + 1) first second (by omega) isFirst isSecond

/-- A ring meets itself if two of its sides do that are not neighbours, the first and the last
side being neighbours. -/
theorem Gauge.meetsItself_eq_false_iff (gauge : Gauge κ δ) {ring : List κ} :
    gauge.meetsItself ring = false ↔
      ∀ i j first second, i + 2 ≤ j → ¬ (i = 0 ∧ j + 1 = (segments ring).length) →
        (segments ring)[i]? = some first → (segments ring)[j]? = some second →
          gauge.meets first second = false := by
  unfold meetsItself
  cases segments ring with
  | nil => simp
  | cons side rest =>
      simp only [Bool.or_eq_false_iff, distantMeet_eq_false_iff, List.any_eq_false,
        mem_dropLast_drop_one_iff, Bool.not_eq_true, List.length_cons]
      constructor
      · rintro ⟨here, later⟩ i j first second distant notEnds isFirst isSecond
        obtain ⟨j, rfl⟩ := Nat.exists_eq_add_of_le' (Nat.le_of_add_left_le distant)
        cases i with
        | zero =>
            obtain rfl : side = first := by simpa using isFirst
            have bound := (List.getElem?_eq_some_iff.mp isSecond).1
            rw [List.length_cons] at bound
            exact here second ⟨j, by omega, isSecond⟩
        | succ i => exact later i (j + 1) first second (by omega) isFirst isSecond
      · intro all
        constructor
        · rintro second ⟨k, bound, isSecond⟩
          exact all 0 (k + 2) side second (by omega) (by omega) rfl isSecond
        · intro i j first second distant isFirst isSecond
          exact all (i + 1) (j + 1) first second (by omega) (by omega) isFirst isSecond

end Sides

variable {K : Type} [Field K] [LinearOrder K]

/-! ## Going round -/

/-- Sides that go round after round, each from where the one before stops.  Those of one round
that are not neighbours have no point in common. -/
structure IsRound (sides : Nat → Segment (Coord K)) (count : Nat) : Prop where
  linked : ∀ i, (sides i).stop = (sides (i + 1)).start
  again : ∀ i, sides (i + count) = sides i
  apart : ∀ i d, 2 ≤ d → d + 2 ≤ count → (sides i).Apart (sides (i + d))

namespace IsRound

variable {sides : Nat → Segment (Coord K)} {count : Nat}

/-- There is a side before every side. -/
theorem exists_before (round : IsRound sides count) (long : 4 ≤ count) (i : Nat) :
    ∃ k, (sides k).stop = (sides i).start ∧ sides (k + 1) = sides i ∧
      (sides k).Apart (sides (i + 1)) := by
  have back : i + count - 1 + 1 = i + count := by omega
  refine ⟨i + count - 1, ?_, ?_, ?_⟩
  · rw [round.linked, back, round.again]
  · rw [back, round.again]
  · have apart := round.apart (i + count - 1) 2 le_rfl long
    have ahead : i + count - 1 + 2 = i + 1 + count := by omega
    rwa [ahead, round.again] at apart

variable [IsStrictOrderedRing K]

theorem start_ne_stop (round : IsRound sides count) (long : 4 ≤ count) (i : Nat) :
    (sides i).start ≠ (sides i).stop := by
  obtain ⟨k, meets, _, apart⟩ := round.exists_before long i
  intro same
  apply apart (sides k).stop (sides k).holds_stop
  rw [meets, same, round.linked]
  exact (sides (i + 1)).holds_start

/-- Neighbours share one vertex only.  If they shared more, one would hold the far end of the
other, where a side begins or stops that is no neighbour of it. -/
theorem eq_stop_of_holds (round : IsRound sides count) (long : 4 ≤ count) {i : Nat} {p : Coord K}
    (holds : (sides i).Holds p) (holdsNext : (sides (i + 1)).Holds p) : p = (sides i).stop := by
  by_contra away
  have first : (sides i).Holds p = Segment.Holds ⟨(sides i).start, (sides i).stop⟩ p := rfl
  have second : (sides (i + 1)).Holds p =
      Segment.Holds ⟨(sides i).stop, (sides (i + 1)).stop⟩ p := by
    rw [round.linked]
  rw [first] at holds
  rw [second] at holdsNext
  rcases holds.overlap holdsNext away with ahead | behind
  · apply round.apart i 2 le_rfl long (sides (i + 1)).stop ahead
    rw [round.linked]
    exact (sides (i + 2)).holds_start
  · obtain ⟨k, meets, _, apart⟩ := round.exists_before long i
    apply apart (sides k).stop (sides k).holds_stop
    rw [meets]
    rw [round.linked] at behind
    exact behind

end IsRound

/-! ## Simple rings -/

variable [ExactRoot K]

/-- A closed ring whose sides meet only in the vertices that neighbours share. -/
structure IsSimple (ring : List (Coord K)) : Prop where
  closed : isClosed ring = true
  long : 4 ≤ ring.length
  proper : ∀ side ∈ segments ring, side.start ≠ side.stop
  touch : ∀ i j first second p, i < j → (segments ring)[i]? = some first →
    (segments ring)[j]? = some second → first.Holds p → second.Holds p →
      j = i + 1 ∧ p = first.stop ∨ (i = 0 ∧ j + 1 = (segments ring).length) ∧ p = first.start

variable [IsStrictOrderedRing K] {ring : List (Coord K)}

/-- The sides of a closed ring, going round. -/
theorem exists_isRound (closed : isClosed ring = true) (long : 2 ≤ ring.length)
    (apart : (Gauge.plane K).meetsItself ring = false) :
    ∃ sides, IsRound sides (segments ring).length ∧
      ∀ i < (segments ring).length, (segments ring)[i]? = some (sides i) := by
  have count : 0 < (segments ring).length := by
    rw [length_segments]
    omega
  let sides (i : Nat) : Segment (Coord K) :=
    (segments ring).get ⟨i % (segments ring).length, Nat.mod_lt i count⟩
  have isSide (i : Nat) : (segments ring)[i % (segments ring).length]? = some (sides i) :=
    List.getElem?_eq_getElem (Nat.mod_lt i count)
  refine ⟨sides, ⟨?_, ?_, ?_⟩, ?_⟩
  · intro i
    obtain ⟨-, stops⟩ := getElem?_segments.mp (isSide i)
    obtain ⟨starts, -⟩ := getElem?_segments.mp (isSide (i + 1))
    have bound := Nat.mod_lt i count
    rw [← Nat.mod_add_mod] at starts
    rcases Nat.lt_or_ge (i % (segments ring).length + 1) (segments ring).length with before | last
    · rw [Nat.mod_eq_of_lt before] at starts
      exact Option.some.inj (stops.symm.trans starts)
    · have isLast : i % (segments ring).length + 1 = (segments ring).length := by omega
      rw [isLast, Nat.mod_self, ← List.head?_eq_getElem?] at starts
      rw [isLast, length_segments, ← List.getLast?_eq_getElem?] at stops
      exact Option.some.inj (stops.symm.trans ((isClosed_iff.mp closed).symm.trans starts))
  · intro i
    simp only [sides, Nat.add_mod_right]
  · intro i d far near
    have distant := (Gauge.plane K).meetsItself_eq_false_iff.mp apart
    have bound := Nat.mod_lt i count
    have isSecond := isSide (i + d)
    rw [← Nat.mod_add_mod] at isSecond
    rcases Nat.lt_or_ge (i % (segments ring).length + d) (segments ring).length with
      sameRound | nextRound
    · rw [Nat.mod_eq_of_lt sameRound] at isSecond
      exact Segment.meets_eq_false_iff.mp
        (distant _ _ _ _ (by omega) (by omega) (isSide i) isSecond)
    · rw [Nat.mod_eq_sub_mod nextRound, Nat.mod_eq_of_lt (by omega)] at isSecond
      exact (Segment.meets_eq_false_iff.mp
        (distant _ _ _ _ (by omega) (by omega) isSecond (isSide i))).symm
  · intro i bound
    rw [← isSide, Nat.mod_eq_of_lt bound]

/-- With four sides or more, a closed ring is simple if it does not meet itself. -/
theorem isSimple_iff_meetsItself (closed : isClosed ring = true) (long : 5 ≤ ring.length) :
    IsSimple ring ↔ (Gauge.plane K).meetsItself ring = false := by
  have count := length_segments ring
  constructor
  · intro simple
    rw [Gauge.meetsItself_eq_false_iff]
    intro i j first second distant notEnds isFirst isSecond
    refine Segment.meets_eq_false_iff.mpr fun p onFirst onSecond => ?_
    rcases simple.touch i j first second p (by omega) isFirst isSecond onFirst onSecond with
      ⟨next, _⟩ | ⟨ends, _⟩
    · omega
    · exact notEnds ends
  · intro apart
    obtain ⟨sides, round, isSide⟩ := exists_isRound closed (by omega) apart
    have four : 4 ≤ (segments ring).length := by omega
    refine ⟨closed, by omega, ?_, ?_⟩
    · intro side member
      obtain ⟨i, bound, rfl⟩ := List.getElem_of_mem member
      have same := (List.getElem?_eq_getElem bound).symm.trans (isSide i bound)
      rw [Option.some.inj same]
      exact round.start_ne_stop four i
    · intro i j first second p before isFirst isSecond onFirst onSecond
      have bound := (List.getElem?_eq_some_iff.mp isSecond).1
      obtain rfl : first = sides i :=
        Option.some.inj (isFirst.symm.trans (isSide i (before.trans bound)))
      obtain rfl : second = sides j := Option.some.inj (isSecond.symm.trans (isSide j bound))
      by_cases next : j = i + 1
      · subst next
        exact Or.inl ⟨rfl, round.eq_stop_of_holds four onFirst onSecond⟩
      · by_cases ends : i = 0 ∧ j + 1 = (segments ring).length
        · refine Or.inr ⟨ends, ?_⟩
          -- the last side and the first one of the next round are neighbours
          have following : sides (j + 1) = sides i := by
            rw [ends.2, ends.1, ← round.again 0, Nat.zero_add]
          rw [round.eq_stop_of_holds four onSecond (following ▸ onFirst), round.linked, following]
        · obtain ⟨d, rfl⟩ := Nat.exists_eq_add_of_lt before
          exact absurd onSecond (round.apart i (d + 1) (by omega) (by omega) p onFirst)

section Bent

open Exact

variable {a b c p : Coord K}

omit [IsStrictOrderedRing K] in
theorem start_ne_stop_of_bent (bent : determinant a b c ≠ 0) : a ≠ b := by
  rintro rfl
  apply bent
  simp only [determinant]
  ring

/-- Two sides that are not on one line share one vertex only. -/
theorem eq_of_bent (bent : determinant a b c ≠ 0) (holds : Segment.Holds ⟨a, b⟩ p)
    (holdsNext : Segment.Holds ⟨b, c⟩ p) : p = b := by
  by_contra away
  rcases holds.overlap holdsNext away with ahead | behind
  · exact bent (determinant_of_holds ahead)
  · rw [← determinant_rotate] at bent
    exact bent (determinant_of_holds behind)

end Bent

open Exact in
/-- A ring of three sides is simple if its corners are not on one line. -/
theorem isSimple_triangle_iff {a b c : Coord K} :
    IsSimple [a, b, c, a] ↔ Scalar.turn a b c ≠ .straight := by
  rw [Ne, Segment.turn_eq_straight_iff]
  constructor
  · intro simple straight
    have properFirst : a ≠ b := simple.proper ⟨a, b⟩ (by simp [segments])
    have properLast : c ≠ a := simple.proper ⟨c, a⟩ (by simp [segments])
    rcases Exact.exists_between straight with onFirst | onSecond | onThird
    · have shared := simple.touch 0 2 ⟨a, b⟩ ⟨c, a⟩ c (by decide) rfl rfl onFirst
        (Segment.holds_start ⟨c, a⟩)
      exact properLast (by simpa using shared)
    · have shared := simple.touch 0 1 ⟨a, b⟩ ⟨b, c⟩ a (by decide) rfl rfl
        (Segment.holds_start ⟨a, b⟩) onSecond
      exact properFirst (by simpa [segments] using shared)
    · have shared := simple.touch 0 2 ⟨a, b⟩ ⟨c, a⟩ b (by decide) rfl rfl
        (Segment.holds_stop ⟨a, b⟩) onThird
      exact properFirst.symm (by simpa using shared)
  · intro bent
    have bentNext : determinant b c a ≠ 0 := determinant_rotate a b c ▸ bent
    have bentLast : determinant c a b ≠ 0 := determinant_rotate b c a ▸ bentNext
    refine ⟨isClosed_iff.mpr rfl, le_rfl, ?_, ?_⟩
    · intro side member
      simp only [segments, List.mem_cons, List.not_mem_nil, or_false] at member
      rcases member with rfl | rfl | rfl
      · exact start_ne_stop_of_bent bent
      · exact start_ne_stop_of_bent bentNext
      · exact start_ne_stop_of_bent bentLast
    · intro i j first second p before isFirst isSecond onFirst onSecond
      have bound : j < 3 := (List.getElem?_eq_some_iff.mp isSecond).1
      have cases : i = 0 ∧ j = 1 ∨ i = 1 ∧ j = 2 ∨ i = 0 ∧ j = 2 := by omega
      rcases cases with ⟨rfl, rfl⟩ | ⟨rfl, rfl⟩ | ⟨rfl, rfl⟩
      all_goals
        obtain rfl := Option.some.inj isFirst
        obtain rfl := Option.some.inj isSecond
      · exact Or.inl ⟨rfl, eq_of_bent bent onFirst onSecond⟩
      · exact Or.inl ⟨rfl, eq_of_bent bentNext onFirst onSecond⟩
      · exact Or.inr ⟨⟨rfl, rfl⟩, eq_of_bent bentLast onSecond onFirst⟩

end Gazetteer
