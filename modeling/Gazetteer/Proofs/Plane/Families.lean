import Gazetteer.Proofs.Plane.Nesting

/-!
# Families of loops

Loops of which no two have a point in common are ordered by lying within each other, and those
around one point are a chain.  So one of them is the innermost, and of those that lie within
another one of them is the outermost.
-/

namespace Gazetteer

/-- Of finitely many that can be compared one is below the others. -/
theorem exists_least {α : Type} (among : α → Prop) (below : α → α → Prop)
    (total : ∀ {a b}, among a → among b → a = b ∨ below a b ∨ below b a)
    (trans : ∀ {a b c}, among a → among b → among c → below a b → below b c → below a c)
    {members : List α} (nonempty : ∃ a ∈ members, among a) :
    ∃ least ∈ members, among least ∧
      ∀ other ∈ members, among other → other = least ∨ below least other := by
  induction members with
  | nil =>
      obtain ⟨a, member, _⟩ := nonempty
      contradiction
  | cons first rest ih =>
      by_cases later : ∃ a ∈ rest, among a
      · obtain ⟨least, member, isAmong, isLeast⟩ := ih later
        by_cases firstAmong : among first ∧ below first least
        · refine ⟨first, List.mem_cons_self, firstAmong.1, ?_⟩
          intro other isOther otherAmong
          rcases List.mem_cons.mp isOther with rfl | isOther
          · exact Or.inl rfl
          · rcases isLeast other isOther otherAmong with rfl | below
            · exact Or.inr firstAmong.2
            · exact Or.inr (trans firstAmong.1 isAmong otherAmong firstAmong.2 below)
        · refine ⟨least, List.mem_cons_of_mem _ member, isAmong, ?_⟩
          intro other isOther otherAmong
          rcases List.mem_cons.mp isOther with rfl | isOther
          · rcases total otherAmong isAmong with same | below | above
            · exact Or.inl same
            · exact absurd ⟨otherAmong, below⟩ firstAmong
            · exact Or.inr above
          · exact isLeast other isOther otherAmong
      · obtain ⟨a, member, isAmong⟩ := nonempty
        obtain rfl : a = first := by
          rcases List.mem_cons.mp member with same | isLater
          · exact same
          · exact absurd ⟨a, isLater, isAmong⟩ later
        refine ⟨a, List.mem_cons_self, isAmong, ?_⟩
        intro other isOther otherAmong
        rcases List.mem_cons.mp isOther with same | isLater
        · exact Or.inl same
        · exact absurd ⟨other, isLater, otherAmong⟩ later

variable {K : Type} [Field K] [LinearOrder K] [IsStrictOrderedRing K] [ExactRoot K]

/-- Loops of which no two have a point in common. -/
structure IsFamily (family : List (List (Coord K))) : Prop where
  loops : ∀ ring ∈ family, IsLoop ring
  separate : family.Pairwise Separate

/-- A ring is the innermost of a family around a point. -/
structure IsInnermost (family : List (List (Coord K))) (p : Coord K) (ring : List (Coord K)) :
    Prop where
  member : ring ∈ family
  inside : ringPosition ring p = .inside
  least : ∀ other ∈ family, ringPosition other p = .inside → other = ring ∨ Within ring other

/-- A ring is the innermost of a family around another ring. -/
structure IsDirectlyAround (family : List (List (Coord K))) (host ring : List (Coord K)) :
    Prop where
  member : host ∈ family
  around : Within ring host
  least : ∀ other ∈ family, Within ring other → other = host ∨ Within host other

/-- A ring begins inside another, and all of a family that it begins inside of are around that. -/
def BeginsDirectlyInside (family : List (List (Coord K))) (ring host : List (Coord K)) : Prop :=
  BeginsInside ring host ∧
    ∀ other ∈ family, BeginsInside ring other → other = host ∨ BeginsInside host other

instance (family : List (List (Coord K))) (ring host : List (Coord K)) :
    Decidable (BeginsDirectlyInside family ring host) :=
  inferInstanceAs (Decidable (_ ∧ _))

theorem isFamily_of_ringsMeet {family : List (List (Coord K))}
    (loops : ∀ ring ∈ family, IsLoop ring)
    (apart : family.Pairwise fun first second => (Gauge.plane K).ringsMeet first second = false) :
    IsFamily family :=
  ⟨loops, apart.imp Gauge.ringsMeet_eq_false_iff.mp⟩

namespace IsFamily

variable {family : List (List (Coord K))} {ring other third host : List (Coord K)} {p : Coord K}

omit [IsStrictOrderedRing K] in
theorem separate_of_ne (isFamily : IsFamily family) (member : ring ∈ family)
    (memberToo : other ∈ family) (differ : ring ≠ other) : Separate ring other :=
  isFamily.separate.forall member memberToo differ

theorem ne_of_within (isFamily : IsFamily family) (member : ring ∈ family)
    (within : Within ring other) : ring ≠ other := by
  rintro rfl
  exact Within.irrefl (isFamily.loops ring member) within

theorem asymm (isFamily : IsFamily family) (member : ring ∈ family) (memberToo : other ∈ family)
    (within : Within ring other) : ¬ Within other ring :=
  within.asymm (isFamily.loops ring member) (isFamily.loops other memberToo)
    (isFamily.separate_of_ne member memberToo (isFamily.ne_of_within member within))

theorem inside (isFamily : IsFamily family) (member : ring ∈ family) (memberToo : other ∈ family)
    (within : Within ring other) (inside : ringPosition ring p = .inside) :
    ringPosition other p = .inside :=
  within.inside (isFamily.loops ring member) (isFamily.loops other memberToo)
    (isFamily.separate_of_ne member memberToo (isFamily.ne_of_within member within)) inside

theorem trans (isFamily : IsFamily family) (memberToo : other ∈ family) (last : third ∈ family)
    (within : Within ring other) (around : Within other third) : Within ring third :=
  fun p on => isFamily.inside memberToo last around (within p on)

/-- Loops around one point are within each other. -/
theorem total (isFamily : IsFamily family) (member : ring ∈ family) (memberToo : other ∈ family)
    (inside : ringPosition ring p = .inside) (insideToo : ringPosition other p = .inside) :
    ring = other ∨ Within ring other ∨ Within other ring := by
  by_cases differ : ring = other
  · exact Or.inl differ
  · exact Or.inr <| Within.of_inside (isFamily.loops ring member) (isFamily.loops other memberToo)
      (isFamily.separate_of_ne member memberToo differ) inside insideToo

theorem within_iff_beginsInside (isFamily : IsFamily family) (member : ring ∈ family)
    (memberToo : other ∈ family) : Within ring other ↔ BeginsInside ring other := by
  have loop := isFamily.loops ring member
  by_cases same : ring = other
  · subst same
    refine iff_of_false (Within.irrefl loop) ?_
    rintro ⟨vertex, isFirst, inside⟩
    have on := loop.ringPosition_eq_boundary_iff.mpr
      (loop.onRing_of_mem (List.mem_of_head? isFirst))
    rw [inside] at on
    contradiction
  · exact Within.iff_beginsInside loop (isFamily.loops other memberToo)
      (isFamily.separate_of_ne member memberToo same)

theorem isInnermost_iff_beginsInside (isFamily : IsFamily family) (member : ring ∈ family) :
    IsInnermost family p ring ↔ ringPosition ring p = .inside ∧
      ∀ other ∈ family, ringPosition other p = .inside →
        other = ring ∨ BeginsInside ring other := by
  constructor
  · rintro ⟨_, inside, least⟩
    refine ⟨inside, fun other isOther around => ?_⟩
    rw [← isFamily.within_iff_beginsInside member isOther]
    exact least other isOther around
  · rintro ⟨inside, least⟩
    refine ⟨member, inside, fun other isOther around => ?_⟩
    rw [isFamily.within_iff_beginsInside member isOther]
    exact least other isOther around

theorem isDirectlyAround_iff_beginsInside (isFamily : IsFamily family) (isHost : host ∈ family)
    (member : ring ∈ family) :
    IsDirectlyAround family host ring ↔ BeginsDirectlyInside family ring host := by
  constructor
  · rintro ⟨_, around, least⟩
    refine ⟨(isFamily.within_iff_beginsInside member isHost).mp around, fun other isOther => ?_⟩
    rw [← isFamily.within_iff_beginsInside member isOther,
      ← isFamily.within_iff_beginsInside isHost isOther]
    exact least other isOther
  · rintro ⟨around, least⟩
    refine ⟨isHost, (isFamily.within_iff_beginsInside member isHost).mpr around,
      fun other isOther => ?_⟩
    rw [isFamily.within_iff_beginsInside member isOther,
      isFamily.within_iff_beginsInside isHost isOther]
    exact least other isOther

/-- One of the loops around a point is the innermost. -/
theorem exists_isInnermost (isFamily : IsFamily family) (member : ring ∈ family)
    (inside : ringPosition ring p = .inside) : ∃ innermost, IsInnermost family p innermost := by
  obtain ⟨least, isMember, ⟨-, isInside⟩, isLeast⟩ :=
    exists_least (fun ring => ring ∈ family ∧ ringPosition ring p = .inside) Within
      (fun a b => isFamily.total a.1 b.1 a.2 b.2) (fun _ b c => isFamily.trans b.1 c.1)
      ⟨ring, member, member, inside⟩
  exact ⟨least, isMember, isInside, fun other isOther around =>
    isLeast other isOther ⟨isOther, around⟩⟩

/-- Between a point and a loop around it that is not the innermost there is a loop that the
other is directly around. -/
theorem exists_isDirectlyAround (isFamily : IsFamily family) (isHost : host ∈ family)
    (member : ring ∈ family) (inside : ringPosition ring p = .inside)
    (within : Within ring host) :
    ∃ below ∈ family, ringPosition below p = .inside ∧ IsDirectlyAround family host below := by
  obtain ⟨top, isMember, ⟨-, isInside, isWithin⟩, isTop⟩ :=
    exists_least
      (fun ring => ring ∈ family ∧ ringPosition ring p = .inside ∧ Within ring host)
      (fun ring other => Within other ring)
      (fun a b => (isFamily.total a.1 b.1 a.2.1 b.2.1).imp_right Or.symm)
      (fun a b _ ab bc => isFamily.trans b.1 a.1 bc ab) ⟨ring, member, member, inside, within⟩
  refine ⟨top, isMember, isInside, isHost, isWithin, fun other isOther around => ?_⟩
  have otherInside := isFamily.inside isMember isOther around isInside
  have hostInside := isFamily.inside isMember isHost isWithin isInside
  rcases isFamily.total isOther isHost otherInside hostInside with same | below | above
  · exact Or.inl same
  · rcases isTop other isOther ⟨isOther, otherInside, below⟩ with rfl | aroundToo
    · exact absurd around (isFamily.asymm isMember isMember around)
    · exact absurd aroundToo (isFamily.asymm isMember isOther around)
  · exact Or.inr above

end IsFamily

end Gazetteer
