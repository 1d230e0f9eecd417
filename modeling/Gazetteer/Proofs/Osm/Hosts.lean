import Gazetteer.Osm.Rings
import Gazetteer.Proofs.Plane.Families
import Gazetteer.Proofs.Plane.SimpleRings

/-!
# Holes and the outlines that they are given to

A hole belongs to the outline directly around it, but it is given to the first outline around it
in the list.  Where these differ, the hole is missing from the outline that it belongs to, and
what is inside the hole is then held by that outline.
-/

namespace Gazetteer.Osm

variable {K : Type} [Field K] [LinearOrder K] [ExactRoot K]

/-- Outlines and holes that follow each other: directly around a hole there is an outline, and
directly around an outline there is no other one. -/
structure IsAlternating (outer inner : List (List (Coord K))) : Prop where
  hosted : ∀ hole ∈ inner, ∃ host ∈ outer, IsDirectlyAround (outer ++ inner) host hole
  alternate : ∀ ring ∈ outer, ∀ host ∈ outer, ¬ IsDirectlyAround (outer ++ inner) host ring

/-- An outline around a hole is listed before the one directly around it. -/
def Misplaced (outer inner : List (List (Coord K))) (hole : List (Coord K)) : Prop :=
  ∃ before host after, outer = before ++ host :: after ∧
    IsDirectlyAround (outer ++ inner) host hole ∧ ∃ ring ∈ before, Within hole ring

/-- A ring as an outline without holes. -/
def bare (ring : List (Coord K)) : Polygon (Coord K) :=
  ⟨ring, []⟩

@[simp] theorem bare_contains_iff {ring : List (Coord K)} {p : Coord K} :
    (bare ring).contains p = true ↔ ringPosition ring p = .inside := by
  simp [bare, Polygon.contains_iff]

variable {outer inner : List (List (Coord K))} {hole : List (Coord K)} {position : Nat}
  {p : Coord K}

/-- A hole is given to the first outline that it begins inside of. -/
theorem host?_eq_some_iff :
    host? (outer.map bare) hole = some position ↔
      ∃ ring, outer[position]? = some ring ∧ BeginsInside hole ring ∧
        ∀ i other, i < position → outer[i]? = some other → ¬ BeginsInside hole other := by
  cases isFirst : hole.head? with
  | none => simp [host?, BeginsInside, isFirst]
  | some vertex =>
      simp only [host?, isFirst, Option.bind_some, List.findIdx?_map,
        List.findIdx?_eq_some_iff_getElem, Function.comp_apply, bare_contains_iff, BeginsInside,
        Option.mem_some_iff, exists_eq_left', List.getElem?_eq_some_iff]
      constructor
      · rintro ⟨bound, inside, before⟩
        refine ⟨outer[position], ⟨bound, rfl⟩, inside, ?_⟩
        rintro i other less ⟨_, rfl⟩
        exact before i less
      · rintro ⟨ring, ⟨bound, rfl⟩, inside, before⟩
        exact ⟨bound, inside, fun i less => before i _ less ⟨less.trans bound, rfl⟩⟩

/-- The holes that are given to the outline at a position. -/
def given (outlines : List (Polygon (Coord K))) (inner : List (List (Coord K))) (position : Nat) :
    List (List (Coord K)) :=
  ((inner.zip (inner.map (host? outlines))).filter fun hole => hole.2 == some position).map Prod.fst

theorem mem_given_iff {outlines : List (Polygon (Coord K))} :
    hole ∈ given outlines inner position ↔ hole ∈ inner ∧ host? outlines hole = some position := by
  rw [given, ← List.map_id inner, List.map_map, List.zip_map']
  simp

theorem assignHoles_bare (closed : ∀ ring ∈ outer ++ inner, isClosed ring = true) :
    assignHoles (outer.map bare) inner =
      outer.mapIdx fun position ring => ⟨ring, given (outer.map bare) inner position⟩ := by
  refine List.ext_getElem (by simp [assignHoles]) fun position _ bound => ?_
  rw [List.length_mapIdx] at bound
  have stays : (Polygon.mk outer[position] (given (outer.map bare) inner position)).IsClosed := by
    rintro ring (_ | ⟨_, isHole⟩)
    · exact closed _ (List.mem_append_left _ (List.getElem_mem bound))
    · exact closed _ (List.mem_append_right _ (mem_given_iff.mp isHole).1)
  simp only [assignHoles, List.getElem_mapIdx, List.getElem_map]
  exact Polygon.closing_of_isClosed stays

/-- What is inside an outline and outside all holes that are given to it. -/
theorem areaContains_assignHoles_iff (closed : ∀ ring ∈ outer ++ inner, isClosed ring = true) :
    areaContains (assignHoles (outer.map bare) inner) p = true ↔
      ∃ position ring, outer[position]? = some ring ∧ ringPosition ring p = .inside ∧
        ∀ hole ∈ inner, host? (outer.map bare) hole = some position →
          ringPosition hole p = .outside := by
  rw [assignHoles_bare closed, areaContains]
  simp only [List.any_eq_true, List.mem_mapIdx, Polygon.contains_iff]
  constructor
  · rintro ⟨_, ⟨position, bound, rfl⟩, inside, outside⟩
    exact ⟨position, outer[position], List.getElem?_eq_getElem bound, inside,
      fun hole member isHost => outside hole (mem_given_iff.mpr ⟨member, isHost⟩)⟩
  · rintro ⟨position, ring, isOutline, inside, outside⟩
    obtain ⟨bound, rfl⟩ := List.getElem?_eq_some_iff.mp isOutline
    exact ⟨_, ⟨position, bound, rfl⟩, inside, fun hole isGiven =>
      outside hole (mem_given_iff.mp isGiven).1 (mem_given_iff.mp isGiven).2⟩

/-! ## Alternating outlines and holes -/

variable [IsStrictOrderedRing K]

/-- No ring is both an outline and a hole. -/
theorem ne_of_isFamily (isFamily : IsFamily (outer ++ inner)) {ring : List (Coord K)}
    (isOutline : ring ∈ outer) (isHole : hole ∈ inner) : ring ≠ hole := by
  rintro rfl
  obtain ⟨vertex, member⟩ := (isFamily.loops ring (List.mem_append_left _ isOutline)).exists_mem
  have on := (isFamily.loops ring (List.mem_append_left _ isOutline)).onRing_of_mem member
  exact (List.pairwise_append.mp isFamily.separate).2.2 ring isOutline ring isHole vertex on on

/-- In a family a hole is given to the first outline around it. -/
theorem host?_eq_some_iff_within (isFamily : IsFamily (outer ++ inner)) (isHole : hole ∈ inner) :
    host? (outer.map bare) hole = some position ↔
      ∃ ring, outer[position]? = some ring ∧ Within hole ring ∧
        ∀ i other, i < position → outer[i]? = some other → ¬ Within hole other := by
  have same {ring : List (Coord K)} {i : Nat} (isOutline : outer[i]? = some ring) :
      Within hole ring ↔ BeginsInside hole ring :=
    isFamily.within_iff_beginsInside (List.mem_append_right _ isHole)
      (List.mem_append_left _ (List.mem_of_getElem? isOutline))
  rw [host?_eq_some_iff]
  constructor
  · rintro ⟨ring, isOutline, begins, before⟩
    exact ⟨ring, isOutline, (same isOutline).mpr begins, fun i other less isOther within =>
      before i other less isOther ((same isOther).mp within)⟩
  · rintro ⟨ring, isOutline, within, before⟩
    exact ⟨ring, isOutline, (same isOutline).mp within, fun i other less isOther begins =>
      before i other less isOther ((same isOther).mpr begins)⟩

/-- A hole that is not given to the outline directly around it is misplaced. -/
theorem misplaced_of_host?_ne (isFamily : IsFamily (outer ++ inner)) (isHole : hole ∈ inner)
    {host : List (Coord K)} (isOutline : outer[position]? = some host)
    (direct : IsDirectlyAround (outer ++ inner) host hole)
    (notGiven : host? (outer.map bare) hole ≠ some position) : Misplaced outer inner hole := by
  obtain ⟨bound, rfl⟩ := List.getElem?_eq_some_iff.mp isOutline
  have earlier : ∃ i other, i < position ∧ outer[i]? = some other ∧ Within hole other := by
    by_contra none
    push Not at none
    exact notGiven ((host?_eq_some_iff_within isFamily isHole).mpr
      ⟨_, isOutline, direct.around, none⟩)
  obtain ⟨i, other, less, isOther, within⟩ := earlier
  refine ⟨outer.take position, outer[position], outer.drop (position + 1), by simp, direct, other,
    ?_, within⟩
  exact List.mem_of_getElem? (by rw [List.getElem?_take_of_lt less, isOther])

section Area

variable (isFamily : IsFamily (outer ++ inner))
include isFamily

/-- A point is inside an outline of which a hole is directly around the point, unless an outline
is innermost around it. -/
theorem exists_hole_around (alternating : IsAlternating outer inner) {host : List (Coord K)}
    (isOutline : host ∈ outer) (inside : ringPosition host p = .inside)
    (notInnermost : ¬ ∃ ring ∈ outer, IsInnermost (outer ++ inner) p ring) :
    ∃ hole ∈ inner, ringPosition hole p = .inside ∧
      IsDirectlyAround (outer ++ inner) host hole := by
  have isMember : host ∈ outer ++ inner := List.mem_append_left _ isOutline
  obtain ⟨innermost, isInnermost⟩ := isFamily.exists_isInnermost isMember inside
  have within : Within innermost host := by
    rcases isInnermost.least host isMember inside with rfl | within
    · exact absurd ⟨host, isOutline, isInnermost⟩ notInnermost
    · exact within
  obtain ⟨below, belowMember, belowInside, direct⟩ :=
    isFamily.exists_isDirectlyAround isMember isInnermost.member isInnermost.inside within
  rcases List.mem_append.mp belowMember with isOutlineToo | isHole
  · exact absurd direct (alternating.alternate below isOutlineToo host isOutline)
  · exact ⟨below, isHole, belowInside, direct⟩

/-- Off the edges, an outline holds what is inside it and inside no hole that is given to it. -/
theorem areaContains_of_not_inside (offEdges : ∀ ring ∈ outer ++ inner, ¬ OnRing ring p)
    {ring : List (Coord K)} (isOutline : outer[position]? = some ring)
    (inside : ringPosition ring p = .inside)
    (notInside : ∀ hole ∈ inner, host? (outer.map bare) hole = some position →
      ringPosition hole p ≠ .inside) :
    areaContains (assignHoles (outer.map bare) inner) p = true := by
  refine (areaContains_assignHoles_iff fun ring member => (isFamily.loops ring member).closed).mpr
    ⟨position, ring, isOutline, inside, fun hole isHole isGiven => ?_⟩
  have member : hole ∈ outer ++ inner := List.mem_append_right _ isHole
  have notInside := notInside hole isHole isGiven
  have notOn := mt (isFamily.loops hole member).ringPosition_eq_boundary_iff.mp
    (offEdges hole member)
  cases place : ringPosition hole p with
  | inside => exact absurd place notInside
  | boundary => exact absurd place notOn
  | outside => rfl

theorem areaContains_of_isInnermost (offEdges : ∀ ring ∈ outer ++ inner, ¬ OnRing ring p)
    {ring : List (Coord K)} (isOutline : ring ∈ outer)
    (isInnermost : IsInnermost (outer ++ inner) p ring) :
    areaContains (assignHoles (outer.map bare) inner) p = true := by
  obtain ⟨position, isAt⟩ := List.mem_iff_getElem?.mp isOutline
  refine areaContains_of_not_inside isFamily offEdges isAt isInnermost.inside ?_
  intro hole isHole isGiven inside
  obtain ⟨host, isHost, within, _⟩ := (host?_eq_some_iff_within isFamily isHole).mp isGiven
  obtain rfl : ring = host := Option.some.inj (isAt.symm.trans isHost)
  have member : hole ∈ outer ++ inner := List.mem_append_right _ isHole
  rcases isInnermost.least hole member inside with same | around
  · exact ne_of_isFamily isFamily isOutline isHole same.symm
  · exact isFamily.asymm member isInnermost.member within around

/-- What is inside a misplaced hole is held by the outline that the hole belongs to: no other
hole of that outline is around it. -/
theorem areaContains_of_misplaced (offEdges : ∀ ring ∈ outer ++ inner, ¬ OnRing ring p)
    (isHole : hole ∈ inner) (inside : ringPosition hole p = .inside)
    (misplaced : Misplaced outer inner hole) :
    areaContains (assignHoles (outer.map bare) inner) p = true := by
  obtain ⟨before, host, after, split, direct, first, isBefore, withinFirst⟩ := misplaced
  have isAt : outer[before.length]? = some host := by simp [split]
  have isOutline : host ∈ outer := List.mem_of_getElem? isAt
  obtain ⟨i, isFirst⟩ := List.mem_iff_getElem?.mp isBefore
  have less : i < before.length := (List.getElem?_eq_some_iff.mp isFirst).1
  have isListed : outer[i]? = some first := by
    rw [split, List.getElem?_append_left less, isFirst]
  have member : hole ∈ outer ++ inner := List.mem_append_right _ isHole
  refine areaContains_of_not_inside isFamily offEdges isAt
    (isFamily.inside member direct.member direct.around inside) ?_
  intro other isOther isGiven otherInside
  obtain ⟨ring, isHost, within, notBefore⟩ := (host?_eq_some_iff_within isFamily isOther).mp isGiven
  obtain rfl : host = ring := Option.some.inj (isAt.symm.trans isHost)
  have otherMember : other ∈ outer ++ inner := List.mem_append_right _ isOther
  have firstMember : first ∈ outer ++ inner :=
    List.mem_append_left _ (List.mem_of_getElem? isListed)
  rcases isFamily.total otherMember member otherInside inside with rfl | below | above
  · exact notBefore i first less isListed withinFirst
  · exact notBefore i first less isListed (isFamily.trans member firstMember below withinFirst)
  · rcases direct.least other otherMember above with same | around
    · exact ne_of_isFamily isFamily isOutline isOther same.symm
    · exact isFamily.asymm otherMember direct.member within around

/-- A point on no ring is held by outlines with their holes if the innermost ring around it is an
outline, and also if a hole around it is not given to the outline that it belongs to. -/
theorem areaContains_assignHoles_iff_misplaced (alternating : IsAlternating outer inner)
    (offEdges : ∀ ring ∈ outer ++ inner, ¬ OnRing ring p) :
    areaContains (assignHoles (outer.map bare) inner) p = true ↔
      (∃ ring ∈ outer, IsInnermost (outer ++ inner) p ring) ∨
        ∃ hole ∈ inner, ringPosition hole p = .inside ∧ Misplaced outer inner hole := by
  constructor
  · intro contains
    by_cases innermost : ∃ ring ∈ outer, IsInnermost (outer ++ inner) p ring
    · exact Or.inl innermost
    · right
      obtain ⟨position, host, isOutline, inside, outside⟩ :=
        (areaContains_assignHoles_iff fun ring member => (isFamily.loops ring member).closed).mp
          contains
      obtain ⟨hole, isHole, around, direct⟩ := exists_hole_around isFamily alternating
        (List.mem_of_getElem? isOutline) inside innermost
      refine ⟨hole, isHole, around, misplaced_of_host?_ne isFamily isHole isOutline direct ?_⟩
      intro isGiven
      rw [outside hole isHole isGiven] at around
      contradiction
  · rintro (⟨ring, isOutline, isInnermost⟩ | ⟨hole, isHole, inside, misplaced⟩)
    · exact areaContains_of_isInnermost isFamily offEdges isOutline isInnermost
    · exact areaContains_of_misplaced isFamily offEdges isHole inside misplaced

end Area

/-- Whether outlines and holes follow each other is told from their first vertices. -/
theorem isAlternating_iff_beginsInside (isFamily : IsFamily (outer ++ inner)) :
    IsAlternating outer inner ↔
      (∀ hole ∈ inner, ∃ host ∈ outer, BeginsDirectlyInside (outer ++ inner) hole host) ∧
        ∀ ring ∈ outer, ∀ host ∈ outer, ¬ BeginsDirectlyInside (outer ++ inner) ring host := by
  have same ring (member : ring ∈ outer ++ inner) host (isHost : host ∈ outer) :=
    isFamily.isDirectlyAround_iff_beginsInside (List.mem_append_left inner isHost) member
  constructor
  · rintro ⟨hosted, alternate⟩
    refine ⟨fun hole isHole => ?_, fun ring isOutline host isHost begins => ?_⟩
    · obtain ⟨host, isHost, direct⟩ := hosted hole isHole
      exact ⟨host, isHost, (same hole (List.mem_append_right _ isHole) host isHost).mp direct⟩
    · exact alternate ring isOutline host isHost
        ((same ring (List.mem_append_left _ isOutline) host isHost).mpr begins)
  · rintro ⟨hosted, alternate⟩
    refine ⟨fun hole isHole => ?_, fun ring isOutline host isHost direct => ?_⟩
    · obtain ⟨host, isHost, begins⟩ := hosted hole isHole
      exact ⟨host, isHost, (same hole (List.mem_append_right _ isHole) host isHost).mpr begins⟩
    · exact alternate ring isOutline host isHost
        ((same ring (List.mem_append_left _ isOutline) host isHost).mp direct)

/-! ## A pond on an island in a lake -/

/-- A square with its corners on the diagonal. -/
def square (low high : ℚ) : List (Coord ℚ) :=
  [⟨low, low⟩, ⟨high, low⟩, ⟨high, high⟩, ⟨low, high⟩, ⟨low, low⟩]

/-- The mainland and an island in its lake. -/
def lands : List (List (Coord ℚ)) :=
  [square 0 10, square 3 7]

/-- The lake and a pond on the island. -/
def waters : List (List (Coord ℚ)) :=
  [square 1 9, square 4 6]

theorem areaContains_assignHoles_island :
    IsFamily (lands.reverse ++ waters) ∧ IsAlternating lands.reverse waters ∧
      (∀ ring ∈ lands.reverse ++ waters, ¬ OnRing ring ⟨3.5, 3.5⟩) ∧
      areaContains (assignHoles (lands.reverse.map bare) waters) ⟨3.5, 3.5⟩ = true := by
  have isFamily : IsFamily (lands.reverse ++ waters) :=
    isFamily_of_ringsMeet (by decide +kernel) (by decide +kernel)
  have alternating := (isAlternating_iff_beginsInside isFamily).mpr (by decide +kernel)
  have offEdges ring (member : ring ∈ lands.reverse ++ waters) : ¬ OnRing ring ⟨3.5, 3.5⟩ := by
    rw [← (isFamily.loops ring member).ringPosition_eq_boundary_iff]
    revert ring
    decide +kernel
  have isInnermost : IsInnermost (lands.reverse ++ waters) ⟨3.5, 3.5⟩ (square 3 7) :=
    (isFamily.isInnermost_iff_beginsInside (by decide)).mpr (by decide +kernel)
  exact ⟨isFamily, alternating, offEdges,
    (areaContains_assignHoles_iff_misplaced isFamily alternating offEdges).mpr
      (Or.inl ⟨square 3 7, by decide, isInnermost⟩)⟩

/-- With the mainland listed first the pond is given to it, and what is in the pond is on the
island. -/
theorem areaContains_assignHoles_pond :
    (∀ ring ∈ lands ++ waters, IsSimple ring) ∧ IsFamily (lands ++ waters) ∧
      IsAlternating lands waters ∧ (∀ ring ∈ lands ++ waters, ¬ OnRing ring ⟨5, 5⟩) ∧
      IsInnermost (lands ++ waters) ⟨5, 5⟩ (square 4 6) ∧ square 4 6 ∉ lands ∧
      areaContains (assignHoles (lands.map bare) waters) ⟨5, 5⟩ = true ∧
      areaContains (assignHoles (lands.reverse.map bare) waters) ⟨5, 5⟩ = false := by
  have isFamily : IsFamily (lands ++ waters) :=
    isFamily_of_ringsMeet (by decide +kernel) (by decide +kernel)
  have simple ring (member : ring ∈ lands ++ waters) : IsSimple ring := by
    refine (isSimple_iff_meetsItself (isFamily.loops ring member).closed ?_).mpr ?_
    · revert ring
      decide +kernel
    · revert ring
      decide +kernel
  refine ⟨simple, isFamily, (isAlternating_iff_beginsInside isFamily).mpr (by decide +kernel), ?_,
    (isFamily.isInnermost_iff_beginsInside (by decide)).mpr (by decide +kernel), by decide,
    by decide +kernel, by decide +kernel⟩
  intro ring member
  rw [← (isFamily.loops ring member).ringPosition_eq_boundary_iff]
  revert ring
  decide +kernel

end Gazetteer.Osm
