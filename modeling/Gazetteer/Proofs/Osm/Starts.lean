import Gazetteer.Proofs.Osm.Hosts
import Gazetteer.Proofs.Plane.Touching
import Mathlib.Data.List.Rotate

/-!
# Where a hole begins

A hole may touch the outline around it in some vertices, as a bay touches a shore.  It is given
to the outline that its first vertex is inside of, and a vertex on the edge is not inside.  So
a ring that lies in one outline only is never given to another, wherever it begins, but where it
begins on the edge it is given to none and is lost.
-/

namespace Gazetteer.Osm

section Rotation

variable {κ : Type} {ring : List κ} {vertex : κ}

/-- A closed ring that begins some vertices later. -/
def startAt (ring : List κ) (k : Nat) : List κ :=
  ring.dropLast.rotate k ++ (ring.dropLast.rotate k).head?.toList

theorem head?_startAt (ring : List κ) (k : Nat) :
    (startAt ring k).head? = (ring.dropLast.rotate k).head? := by
  rw [startAt]
  cases ring.dropLast.rotate k <;> rfl

theorem mem_of_head?_startAt {k : Nat} (begins : (startAt ring k).head? = some vertex) :
    vertex ∈ ring := by
  rw [head?_startAt] at begins
  exact List.mem_of_mem_dropLast (List.mem_rotate.mp (List.mem_of_head? begins))

/-- A closed ring can begin at every vertex. -/
theorem exists_head?_startAt (closed : ring.head? = ring.getLast?) (long : 2 ≤ ring.length)
    (member : vertex ∈ ring) : ∃ k, (startAt ring k).head? = some vertex := by
  have isAmong : vertex ∈ ring.dropLast := by
    match ring, long with
    | first :: second :: rest, _ =>
        rw [← List.dropLast_append_getLast (List.cons_ne_nil first (second :: rest)),
          List.mem_append, List.mem_singleton] at member
        rcases member with isAmong | rfl
        · exact isAmong
        · rw [List.getLast?_eq_getLast_of_ne_nil
            (List.cons_ne_nil first (second :: rest))] at closed
          rw [← Option.some.inj closed]
          exact List.mem_cons_self
  obtain ⟨k, isAt⟩ := List.mem_iff_getElem?.mp isAmong
  have less := (List.getElem?_eq_some_iff.mp isAt).1
  exact ⟨k, by rw [head?_startAt, List.head?_rotate less, isAt]⟩

theorem exists_head?_startAt_of_long (long : 2 ≤ ring.length) (k : Nat) :
    ∃ vertex, (startAt ring k).head? = some vertex := by
  have nonempty : ring.dropLast.rotate k ≠ [] := by
    rw [Ne, List.rotate_eq_nil_iff, ← List.length_eq_zero_iff, List.length_dropLast]
    omega
  exact ⟨_, by rw [head?_startAt, List.head?_eq_some_head nonempty]⟩

theorem isClosed_startAt [BEq κ] [ReflBEq κ] (ring : List κ) (k : Nat) :
    isClosed (startAt ring k) = true := by
  rw [isClosed, startAt]
  cases ring.dropLast.rotate k with
  | nil => rfl
  | cons first rest =>
      rw [List.head?_cons, Option.toList_some, List.getLast?_concat, List.cons_append,
        List.head?_cons]
      exact BEq.refl (some first)

end Rotation

variable {K : Type} [Field K] [LinearOrder K] [ExactRoot K]
variable {outlines : List (Polygon (Coord K))} {outline : Polygon (Coord K)}
  {holes : List (List (Coord K))} {ring hole : List (Coord K)} {position i : Nat}

theorem bare_position (ring : List (Coord K)) (p : Coord K) :
    (bare ring).position p = ringPosition ring p := by
  unfold Polygon.position bare
  cases ringPosition ring p <;> rfl

/-- The polygon at a position has a ring for a hole. -/
def HasHole (polygons : List (Polygon (Coord K))) (position : Nat) (ring : List (Coord K)) : Prop :=
  ∃ polygon, polygons[position]? = some polygon ∧ ring ∈ polygon.interiors

/-- A ring lies in the outline at a position and in no other.  Its vertices may touch the edge of
the outline. -/
structure LiesIn (outlines : List (Polygon (Coord K))) (position : Nat)
    (outline : Polygon (Coord K)) (ring : List (Coord K)) : Prop where
  isAt : outlines[position]? = some outline
  within : ∀ p, OnRing ring p →
    outline.position p = .inside ∨ p ∈ ring ∧ outline.position p = .boundary
  others : ∀ i other, outlines[i]? = some other → i ≠ position →
    ∀ p, OnRing ring p → other.position p ≠ .inside

theorem head?_closeRing (ring : List (Coord K)) : (closeRing ring).head? = ring.head? := by
  unfold closeRing
  split
  · rfl
  · cases ring <;> rfl

/-- A closed ring among the holes is a hole of the polygon that it is given to. -/
theorem hasHole_assignHoles_iff (closed : isClosed hole = true) (among : hole ∈ holes) :
    HasHole (assignHoles outlines holes) i hole ↔ host? outlines hole = some i := by
  have isHost (outline : Polygon (Coord K)) :
      hole ∈ (Polygon.closing outline.exterior (given outlines holes i)).interiors ↔
        host? outlines hole = some i := by
    simp only [Polygon.closing, List.mem_map, mem_given_iff]
    constructor
    · rintro ⟨other, ⟨-, isGiven⟩, rfl⟩
      rw [host?, head?_closeRing]
      exact isGiven
    · intro isGiven
      exact ⟨hole, ⟨among, isGiven⟩, closeRing_of_isClosed closed⟩
  simp only [HasHole, assignHoles, List.getElem?_mapIdx, Option.map_eq_some_iff]
  constructor
  · rintro ⟨_, ⟨outline, -, rfl⟩, member⟩
    exact (isHost outline).mp member
  · intro isGiven
    have bound : i < outlines.length := by
      obtain ⟨vertex, -, isFirst⟩ := Option.bind_eq_some_iff.mp isGiven
      exact (List.findIdx?_eq_some_iff_getElem.mp isFirst).1
    exact ⟨_, ⟨outlines[i], List.getElem?_eq_getElem bound, rfl⟩, (isHost _).mpr isGiven⟩

/-- A hole that lies in one outline only is given to it if it begins inside of it, and never to
another. -/
theorem host?_of_liesIn (liesIn : LiesIn outlines position outline ring) {vertex : Coord K}
    (on : OnRing ring vertex) (begins : hole.head? = some vertex) :
    host? outlines hole = some i ↔ i = position ∧ outline.position vertex = .inside := by
  rw [host?, begins, Option.bind_some, List.findIdx?_eq_some_iff_getElem]
  obtain ⟨bound, isOutline⟩ := List.getElem?_eq_some_iff.mp liesIn.isAt
  constructor
  · rintro ⟨less, contains, -⟩
    have inside : outlines[i].position vertex = .inside := eq_of_beq contains
    obtain rfl : i = position := by
      by_contra differ
      exact liesIn.others i _ (List.getElem?_eq_getElem less) differ vertex on inside
    exact ⟨rfl, isOutline ▸ inside⟩
  · rintro ⟨rfl, inside⟩
    refine ⟨bound, beq_iff_eq.mpr (isOutline ▸ inside), fun k less contains => ?_⟩
    have isAt := List.getElem?_eq_getElem (less.trans bound)
    exact liesIn.others k _ isAt less.ne vertex on (eq_of_beq contains)

variable [IsStrictOrderedRing K]

/-- A ring that lies in one outline only is a hole of it where it begins inside of it, and never
of another. -/
theorem hasHole_startAt_iff_begins (loop : IsLoop ring)
    (liesIn : LiesIn outlines position outline ring) {k : Nat} {vertex : Coord K}
    (begins : (startAt ring k).head? = some vertex) (among : startAt ring k ∈ holes) :
    HasHole (assignHoles outlines holes) i (startAt ring k) ↔
      i = position ∧ outline.position vertex = .inside := by
  rw [hasHole_assignHoles_iff (isClosed_startAt ring k) among]
  exact host?_of_liesIn liesIn (loop.onRing_of_mem (mem_of_head?_startAt begins)) begins

/-- From every start a ring that lies in one outline only is a hole of it if it begins inside of
it, and never of another.  So it is the same outline's hole from every start exactly if no vertex
touches the edge. -/
theorem hasHole_startAt_iff (loop : IsLoop ring) (liesIn : LiesIn outlines position outline ring) :
    (∀ k holes, startAt ring k ∈ holes → ∀ i,
      HasHole (assignHoles outlines holes) i (startAt ring k) ↔
        i = position ∧ ∀ vertex ∈ (startAt ring k).head?, outline.position vertex = .inside) ∧
    ((∀ k holes, startAt ring k ∈ holes → ∀ i,
      HasHole (assignHoles outlines holes) i (startAt ring k) ↔ i = position) ↔
        ∀ vertex ∈ ring, outline.position vertex = .inside) := by
  refine ⟨fun k holes among i => ?_, fun everywhere vertex member => ?_,
    fun inside k holes among i => ?_⟩
  · obtain ⟨vertex, begins⟩ := exists_head?_startAt_of_long loop.long k
    simpa only [begins, Option.mem_some_iff, forall_eq'] using
      hasHole_startAt_iff_begins loop liesIn begins among
  · -- what is to be known of a vertex is told by the start there
    obtain ⟨k, begins⟩ := exists_head?_startAt (isClosed_iff.mp loop.closed) loop.long member
    have isHole := (everywhere k [startAt ring k] List.mem_cons_self position).mpr rfl
    exact ((hasHole_startAt_iff_begins loop liesIn begins List.mem_cons_self).mp isHole).2
  · obtain ⟨vertex, begins⟩ := exists_head?_startAt_of_long loop.long k
    rw [hasHole_startAt_iff_begins loop liesIn begins among, and_iff_left]
    exact inside vertex (mem_of_head?_startAt begins)

/-! ## A bay at the shore -/

/-- Two islands. -/
def islands : List (Polygon (Coord ℚ)) :=
  [bare (square 20 30), bare (square 0 10)]

/-- A bay that touches the shore of the second island where it begins. -/
def bay : List (Coord ℚ) :=
  [⟨0, 5⟩, ⟨2, 4⟩, ⟨2, 6⟩, ⟨0, 5⟩]

theorem liesIn_bay : LiesIn islands 1 (bare (square 0 10)) bay := by
  have isLoop : IsLoop (square 0 10) := by decide
  refine ⟨rfl, fun p on => ?_, fun i other isAt apart p on => ?_⟩
  · simp only [bare_position]
    refine inside_or_touches isLoop ?_ ?_ ?_ ?_ on <;> decide +kernel
  · obtain rfl : i = 0 := by
      have bound : i < 2 := (List.getElem?_eq_some_iff.mp isAt).1
      omega
    obtain rfl : bare (square 20 30) = other := Option.some.inj isAt
    have separate : Separate bay (square 20 30) :=
      Gauge.ringsMeet_eq_false_iff.mp (by decide +kernel)
    have onToo : OnRing bay ⟨0, 5⟩ := IsLoop.onRing_of_mem (by decide) (by decide)
    have isLoopToo : IsLoop (square 20 30) := by decide
    rw [bare_position, isLoopToo.ringPosition_eq_of_onRing separate on onToo]
    decide +kernel

theorem hasHole_startAt_iff_bay :
    IsLoop bay ∧ LiesIn islands 1 (bare (square 0 10)) bay ∧
      HasHole (assignHoles islands [startAt bay 1]) 1 (startAt bay 1) ∧
      ¬ ∀ k holes, startAt bay k ∈ holes → ∀ i,
        HasHole (assignHoles islands holes) i (startAt bay k) ↔ i = 1 := by
  have isLoop : IsLoop bay := by decide
  obtain ⟨begins, everywhere⟩ := hasHole_startAt_iff isLoop liesIn_bay
  refine ⟨isLoop, liesIn_bay, (begins 1 _ List.mem_cons_self 1).mpr (by decide +kernel), ?_⟩
  rw [everywhere]
  decide +kernel

/-- The bay is lost if it begins where it touches the shore, and kept if it begins a vertex
later. -/
theorem not_hasHole_bay :
    IsSimple bay ∧ LiesIn islands 1 (bare (square 0 10)) bay ∧ startAt bay 0 = bay ∧
      HasHole (assignHoles islands [startAt bay 1]) 1 (startAt bay 1) ∧
      ¬ ∃ i, HasHole (assignHoles islands [bay]) i bay := by
  have lost : assignHoles islands [bay] = islands := by decide +kernel
  refine ⟨isSimple_triangle_iff.mpr (by decide +kernel), liesIn_bay, rfl, ?_, ?_⟩
  · have isLoop : IsLoop bay := by decide
    have begins : (startAt bay 1).head? = some ⟨2, 4⟩ := rfl
    refine (hasHole_startAt_iff_begins isLoop liesIn_bay begins List.mem_cons_self).mpr ⟨rfl, ?_⟩
    decide +kernel
  · rw [lost]
    rintro ⟨i, polygon, isAt, member⟩
    have none : ∀ island ∈ islands, island.interiors = [] := by decide
    rw [none polygon (List.mem_of_getElem? isAt)] at member
    contradiction

end Gazetteer.Osm
