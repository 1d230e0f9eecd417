import Gazetteer.Proofs.Plane.Flattening
import Gazetteer.Proofs.Plane.Nesting

/-!
# Holes of a simplified polygon

The holes of a simplified polygon stay inside its outline: no two rings meet, and the outline
winds around the first vertex of every hole.  That no hole is within another is not looked at.
A hole that loses a notch may come to lie around a hole that was in the notch.
-/

namespace Gazetteer

theorem anyPair_eq_false_iff {α : Type} {related : α → α → Bool} {members : List α} :
    anyPair related members = false ↔
      members.Pairwise fun first second => related first second = false := by
  induction members with
  | nil => simp [anyPair]
  | cons first rest ih => simp [anyPair, ih]

variable {K : Type} [Field K] [LinearOrder K] [ExactRoot K]

namespace Polygon

/-- The holes of a polygon are strictly inside its outline. -/
def HolesInside (polygon : Polygon (Coord K)) : Prop :=
  ∀ hole ∈ polygon.interiors, ∀ p, Covers hole p → ringPosition polygon.exterior p = .inside

/-- No two holes of a polygon have a point in common. -/
def HolesApart (polygon : Polygon (Coord K)) : Prop :=
  polygon.interiors.Pairwise fun first second => ∀ p, Covers first p → ¬ Covers second p

end Polygon

theorem IsSimple.isLoop {ring : List (Coord K)} (simple : IsSimple ring) : IsLoop ring :=
  ⟨simple.closed, (by decide : 2 ≤ 4).trans simple.long⟩

namespace Gauge

/-- A hole winds around the first vertex of another when it is simplified. -/
def Swallows (tolerance : K) (hole other : List (Coord K)) : Prop :=
  BeginsInside other ((plane K).simplifyRing tolerance hole)

instance (tolerance : K) (hole other : List (Coord K)) :
    Decidable (Swallows tolerance hole other) :=
  inferInstanceAs (Decidable (BeginsInside other ((plane K).simplifyRing tolerance hole)))

theorem isLoop_simplifyRing (tolerance : K) {ring : List (Coord K)} (loop : IsLoop ring) :
    IsLoop ((plane K).simplifyRing tolerance ring) := by
  refine ⟨(isClosed_simplifyRing _ tolerance ring).trans loop.closed, ?_⟩
  rcases simplifyRing_cases (plane K) tolerance ring with kept | ⟨thinned, _, four, _⟩
  · rw [kept]
    exact loop.long
  · rw [thinned]
    exact (by decide : 2 ≤ 4).trans four

theorem isLoop_of_mem_simplifyRings (tolerance : K) {polygon : Polygon (Coord K)}
    (loops : ∀ ring ∈ polygon.rings, IsLoop ring) {ring : List (Coord K)}
    (member : ring ∈ ((plane K).simplifyRings tolerance polygon).rings) : IsLoop ring := by
  rw [rings_simplifyRings] at member
  obtain ⟨original, among, rfl⟩ := List.mem_map.mp member
  exact isLoop_simplifyRing tolerance (loops original among)

variable [IsStrictOrderedRing K]

/-- What is looked at before simplified rings are used. -/
theorem keepsApart_iff {polygon : Polygon (Coord K)} (loops : ∀ ring ∈ polygon.rings, IsLoop ring) :
    (plane K).keepsApart polygon.exterior polygon.interiors = true ↔
      (∀ hole ∈ polygon.interiors, Within hole polygon.exterior) ∧
        polygon.rings.Pairwise Separate := by
  have isLoop : IsLoop polygon.exterior := loops _ List.mem_cons_self
  have apart : anyPair (plane K).ringsMeet (polygon.exterior :: polygon.interiors) = false ↔
      polygon.rings.Pairwise Separate := by
    simp only [anyPair_eq_false_iff, ringsMeet_eq_false_iff]
    rfl
  have holds p : (plane K).contains (Polygon.closing polygon.exterior []) p = true ↔
      ringPosition polygon.exterior p = .inside := by
    have same : Polygon.closing polygon.exterior [] = ⟨polygon.exterior, []⟩ := by
      rw [Polygon.closing, closeRing_of_isClosed isLoop.closed, List.map_nil]
    rw [same]
    simp [plane, Polygon.contains_iff]
  simp only [keepsApart, Bool.and_eq_true, Bool.not_eq_true', apart, List.all_eq_true,
    Option.all_eq_true, holds]
  refine and_congr_left fun separate => forall₂_congr fun hole member => ?_
  rw [Within.iff_beginsInside (loops hole (List.mem_cons_of_mem _ member)) isLoop
    (List.rel_of_pairwise_cons separate member).symm, BeginsInside]
  obtain ⟨vertex, isFirst⟩ := (loops hole (List.mem_cons_of_mem _ member)).exists_head
  simp [isFirst]

section

variable {polygon : Polygon (Coord K)} (loops : ∀ ring ∈ polygon.rings, IsLoop ring)
  (keeps : (plane K).keepsApart polygon.exterior polygon.interiors = true)
include loops keeps

theorem holesInside_of_keepsApart : polygon.HolesInside := by
  obtain ⟨within, separate⟩ := (keepsApart_iff loops).mp keeps
  intro hole member p covers
  exact (within hole member).inside_of_covers (loops hole (List.mem_cons_of_mem _ member))
    (loops _ List.mem_cons_self) (List.rel_of_pairwise_cons separate member).symm covers

/-- Holes of which the rings are apart are apart themselves if none begins inside another. -/
theorem holesApart_iff_of_keepsApart :
    polygon.HolesApart ↔ polygon.interiors.Pairwise fun first second =>
      ¬ BeginsInside first second ∧ ¬ BeginsInside second first := by
  have separate := (List.pairwise_cons.mp ((keepsApart_iff loops).mp keeps).2).2
  have pairs {hole other : List (Coord K)} (member : hole ∈ polygon.interiors)
      (memberToo : other ∈ polygon.interiors) (apart : Separate hole other) :
      (∀ p, Covers hole p → ¬ Covers other p) ↔
        ¬ BeginsInside hole other ∧ ¬ BeginsInside other hole := by
    have loop := loops hole (List.mem_cons_of_mem _ member)
    have loopToo := loops other (List.mem_cons_of_mem _ memberToo)
    rw [covers_disjoint_iff loop loopToo apart, Within.iff_beginsInside loop loopToo apart,
      Within.iff_beginsInside loopToo loop apart.symm]
  constructor
  · intro disjoint
    exact (disjoint.and separate).imp_of_mem fun member memberToo both =>
      (pairs member memberToo both.2).mp both.1
  · intro outside
    exact (outside.and separate).imp_of_mem fun member memberToo both =>
      (pairs member memberToo both.2).mpr both.1

end

/-- The holes of a simplified polygon are inside its outline.  They are apart if it is not
simplified or none of them winds around the first vertex of another when it is. -/
theorem holesApart_simplifyPolygon_iff (tolerance : K) {polygon : Polygon (Coord K)}
    (simple : ∀ ring ∈ polygon.rings, IsSimple ring) (inside : polygon.HolesInside)
    (apart : polygon.HolesApart) :
    ((plane K).simplifyPolygon tolerance polygon).HolesInside ∧
      (((plane K).simplifyPolygon tolerance polygon).HolesApart ↔
        ((plane K).keepsApart ((plane K).simplifyRings tolerance polygon).exterior
            ((plane K).simplifyRings tolerance polygon).interiors = true →
          polygon.interiors.Pairwise fun first second =>
            ¬ Swallows tolerance first second ∧ ¬ Swallows tolerance second first)) := by
  have loops ring (member : ring ∈ polygon.rings) := (simple ring member).isLoop
  rw [simplifyPolygon_eq_ite (plane K) tolerance fun ring member => (loops ring member).closed]
  split_ifs with keeps
  · have simplified ring (member : ring ∈ ((plane K).simplifyRings tolerance polygon).rings) :=
      isLoop_of_mem_simplifyRings tolerance loops member
    refine ⟨holesInside_of_keepsApart simplified keeps, ?_⟩
    rw [imp_iff_right keeps, holesApart_iff_of_keepsApart simplified keeps]
    simp only [simplifyRings, List.pairwise_map, BeginsInside, head?_simplifyRing, Swallows,
      and_comm]
  · exact ⟨inside, fun _ failed => absurd failed keeps, fun _ => apart⟩

/-! ## A hole in the notch of a hole -/

/-- A triangle with a notched hole and one other. -/
def clearings (other : List (Coord ℚ)) : Polygon (Coord ℚ) where
  exterior := [⟨-10, -10⟩, ⟨40, -10⟩, ⟨-10, 40⟩, ⟨-10, -10⟩]
  interiors := [[⟨0, 0⟩, ⟨8, 0⟩, ⟨0, 6⟩, ⟨1.5, 2⟩, ⟨0, 0⟩], other]

/-- A triangle to the right of the notched hole. -/
def besideNotch : List (Coord ℚ) :=
  [⟨12, 2⟩, ⟨14, 2⟩, ⟨13, 4⟩, ⟨12, 2⟩]

/-- A triangle in the notch. -/
def insideNotch : List (Coord ℚ) :=
  [⟨0.25, 2⟩, ⟨0.75, 2⟩, ⟨0.5, 3⟩, ⟨0.25, 2⟩]

theorem isSimple_clearings {other : List (Coord ℚ)} (simple : IsSimple other) :
    ∀ ring ∈ (clearings other).rings, IsSimple ring := by
  intro ring member
  simp only [Polygon.rings, clearings, List.mem_cons, List.not_mem_nil, or_false] at member
  rcases member with rfl | rfl | rfl
  · exact isSimple_triangle_iff.mpr (by decide +kernel)
  · exact (isSimple_iff_meetsItself (by decide +kernel) (by decide)).mpr (by decide +kernel)
  · exact simple

theorem holesApart_clearings {other : List (Coord ℚ)} (simple : IsSimple other)
    (keeps : (plane ℚ).keepsApart (clearings other).exterior (clearings other).interiors = true)
    (outside : (clearings other).interiors.Pairwise fun first second =>
      ¬ BeginsInside first second ∧ ¬ BeginsInside second first) :
    (clearings other).HolesInside ∧ (clearings other).HolesApart := by
  have loops ring (member : ring ∈ (clearings other).rings) :=
    (isSimple_clearings simple ring member).isLoop
  exact ⟨holesInside_of_keepsApart loops keeps,
    (holesApart_iff_of_keepsApart loops keeps).mpr outside⟩

theorem holesApart_simplifyPolygon_besideNotch :
    (∀ ring ∈ (clearings besideNotch).rings, IsSimple ring) ∧
      (clearings besideNotch).HolesInside ∧ (clearings besideNotch).HolesApart ∧
      (plane ℚ).simplifyPolygon 2 (clearings besideNotch) =
        ⟨[⟨-10, -10⟩, ⟨40, -10⟩, ⟨-10, 40⟩, ⟨-10, -10⟩],
          [[⟨0, 0⟩, ⟨8, 0⟩, ⟨0, 6⟩, ⟨0, 0⟩], besideNotch]⟩ ∧
      ((plane ℚ).simplifyPolygon 2 (clearings besideNotch)).HolesInside ∧
      ((plane ℚ).simplifyPolygon 2 (clearings besideNotch)).HolesApart := by
  have isSimple : IsSimple besideNotch := isSimple_triangle_iff.mpr (by decide +kernel)
  obtain ⟨inside, apart⟩ :=
    holesApart_clearings isSimple (by decide +kernel) (by decide +kernel)
  have simple := isSimple_clearings isSimple
  obtain ⟨insideStill, apartStill⟩ := holesApart_simplifyPolygon_iff 2 simple inside apart
  exact ⟨simple, inside, apart, by decide +kernel, insideStill,
    apartStill.mpr fun _ => by decide +kernel⟩

/-- Without its notch, the hole lies around the triangle that was in the notch. -/
theorem not_holesApart_simplifyPolygon_insideNotch :
    (∀ ring ∈ (clearings insideNotch).rings, IsSimple ring) ∧
      (clearings insideNotch).HolesInside ∧ (clearings insideNotch).HolesApart ∧
      (plane ℚ).simplifyPolygon 2 (clearings insideNotch) =
        ⟨[⟨-10, -10⟩, ⟨40, -10⟩, ⟨-10, 40⟩, ⟨-10, -10⟩],
          [[⟨0, 0⟩, ⟨8, 0⟩, ⟨0, 6⟩, ⟨0, 0⟩], insideNotch]⟩ ∧
      ¬ ((plane ℚ).simplifyPolygon 2 (clearings insideNotch)).HolesApart := by
  have isSimple : IsSimple insideNotch := isSimple_triangle_iff.mpr (by decide +kernel)
  obtain ⟨inside, apart⟩ :=
    holesApart_clearings isSimple (by decide +kernel) (by decide +kernel)
  have simplified : (plane ℚ).simplifyPolygon 2 (clearings insideNotch) =
      ⟨[⟨-10, -10⟩, ⟨40, -10⟩, ⟨-10, 40⟩, ⟨-10, -10⟩],
        [[⟨0, 0⟩, ⟨8, 0⟩, ⟨0, 6⟩, ⟨0, 0⟩], insideNotch]⟩ := by decide +kernel
  refine ⟨isSimple_clearings isSimple, inside, apart, simplified, ?_⟩
  rw [simplified]
  intro stillApart
  have common : Covers [⟨0, 0⟩, ⟨8, 0⟩, ⟨0, 6⟩, ⟨0, 0⟩] (⟨0.25, 2⟩ : Coord ℚ) := by
    rw [Covers]
    decide +kernel
  have onOther : Covers insideNotch ⟨0.25, 2⟩ := by
    rw [Covers]
    decide +kernel
  exact List.rel_of_pairwise_cons stillApart List.mem_cons_self _ common onOther

end Gauge

end Gazetteer
