import Gazetteer.Proofs.Plane.Exact
import Gazetteer.Proofs.Plane.Idempotence
import Mathlib.Data.List.Forall2

/-!
# How far simplifying strays

Between two vertices that thinning keeps next to each other it leaves out only vertices that
deviate from the segment between these two by no more than the tolerance.  The deviations that
decide are those from the segments of the recursion, and a segment of the recursion that is not
split any more is one of the result, so that nothing is lost.  A ring, a polygon or an area that
falls back to what it was leaves nothing out.
-/

namespace Gazetteer

/-! ## Lists that bridge what they leave out -/

section Bridges

variable {κ : Type} {near closer : Segment κ → κ → Prop} {vertices kept : List κ}

/-- The kept vertices bridge what is left out between them: every vertex that is left out is
near the segment from the kept vertex before it to the kept vertex behind it. -/
inductive Bridges (near : Segment κ → κ → Prop) : (vertices kept : List κ) → Prop where
  | nil : Bridges near [] []
  | last (vertex : κ) : Bridges near [vertex] [vertex]
  | step {first next : κ} {leftOut rest kept : List κ}
      (spanned : ∀ vertex ∈ leftOut, near ⟨first, next⟩ vertex)
      (further : Bridges near (next :: rest) (next :: kept)) :
      Bridges near (first :: (leftOut ++ next :: rest)) (first :: next :: kept)

namespace Bridges

/-- Nothing has to be bridged where nothing is left out. -/
theorem refl (near : Segment κ → κ → Prop) (vertices : List κ) :
    Bridges near vertices vertices := by
  induction vertices with
  | nil => exact .nil
  | cons first rest ih =>
      cases rest with
      | nil => exact .last first
      | cons next rest =>
          have spanned : ∀ vertex ∈ [], near ⟨first, next⟩ vertex :=
            fun vertex member => absurd member List.not_mem_nil
          exact .step spanned ih

theorem mono (closer_near : ∀ segment vertex, closer segment vertex → near segment vertex)
    (bridges : Bridges closer vertices kept) : Bridges near vertices kept := by
  induction bridges with
  | nil => exact .nil
  | last vertex => exact .last vertex
  | step spanned _ ih =>
      exact .step (fun vertex member => closer_near _ _ (spanned vertex member)) ih

theorem sublist (bridges : Bridges near vertices kept) : kept.Sublist vertices := by
  induction bridges with
  | nil => exact List.Sublist.refl []
  | last vertex => exact List.Sublist.refl [vertex]
  | step _ _ ih => exact (ih.trans (List.sublist_append_right _ _)).cons_cons _

theorem head?_eq (bridges : Bridges near vertices kept) : kept.head? = vertices.head? := by
  cases bridges <;> rfl

theorem getLast?_eq (bridges : Bridges near vertices kept) :
    kept.getLast? = vertices.getLast? := by
  induction bridges with
  | nil => rfl
  | last vertex => rfl
  | step _ _ ih =>
      rename_i first next leftOut rest kept _ _
      rw [List.getLast?_cons_cons, ih, ← List.cons_append, List.getLast?_append, List.getLast?_cons,
        Option.some_or]

end Bridges

/-- A list with the same ends that is left when vertices are left out, where every vertex that
is left out is near the segment between the two that are kept next to it. -/
structure StaysNear (near : Segment κ → κ → Prop) (vertices kept : List κ) : Prop where
  sublist : kept.Sublist vertices
  head?_eq : kept.head? = vertices.head?
  getLast?_eq : kept.getLast? = vertices.getLast?
  bridges : Bridges near vertices kept

theorem Bridges.staysNear (bridges : Bridges near vertices kept) : StaysNear near vertices kept :=
  ⟨bridges.sublist, bridges.head?_eq, bridges.getLast?_eq, bridges⟩

end Bridges

/-! ## Thinning -/

namespace Simplify

variable {κ δ : Type} [Zero δ] [LT δ] [DecidableLT δ] [FloatingOrder δ]
  {deviation : Segment κ → κ → δ} {tolerance : δ} {first last : κ} {interior : List κ}

/-- Where an interior is not split, no vertex of it is beyond the tolerance. -/
theorem not_beyond_of_splitBetween?_eq_none (positive : 0 < tolerance)
    (whole : splitBetween? deviation tolerance first last interior = none) :
    ∀ vertex ∈ interior, ¬ tolerance < deviation ⟨first, last⟩ vertex := by
  intro vertex member beyond
  have above : 0 < deviation ⟨first, last⟩ vertex := FloatingOrder.trans positive beyond
  rcases flat_or_isPeak (deviation ⟨first, last⟩) 0 interior with
    flat | ⟨before, middle, after, rfl, isPeak⟩
  · exact flat vertex member above
  · have within : ¬ tolerance < deviation ⟨first, last⟩ middle := by
      intro reaches
      rw [splitBetween?_of_isPeak isPeak, if_pos reaches] at whole
      contradiction
    rcases List.mem_append.mp member with earlier | later
    · exact within (FloatingOrder.trans beyond (isPeak.first vertex earlier above))
    · rcases List.mem_cons.mp later with rfl | later
      · exact within beyond
      · -- The peak compares with zero, so it is above the tolerance or below this vertex.
        rcases FloatingOrder.apart beyond (Or.inr isPeak.beyond) with reaches | below
        · exact within reaches
        · exact isPeak.most vertex later below

/-- What the recursion keeps between two kept vertices bridges what it leaves out, whatever is
kept behind them. -/
theorem thinBetween_bridges (positive : 0 < tolerance) (deviation : Segment κ → κ → δ)
    (first last : κ) (interior : List κ) {rest kept : List κ}
    (further : Bridges (fun segment vertex => ¬ tolerance < deviation segment vertex)
      (last :: rest) (last :: kept)) :
    Bridges (fun segment vertex => ¬ tolerance < deviation segment vertex)
      (first :: (interior ++ last :: rest))
      (first :: (thinBetween deviation tolerance first last interior ++ last :: kept)) := by
  fun_induction thinBetween deviation tolerance first last interior generalizing rest kept with
  | case1 first last interior whole =>
      exact .step (not_beyond_of_splitBetween?_eq_none positive whole) further
  | case2 first last interior before middle after found left right =>
      rw [eq_of_splitBetween? found, List.append_assoc, List.append_assoc]
      exact left (right further)

theorem thin_bridges (positive : 0 < tolerance) (deviation : Segment κ → κ → δ)
    (vertices : List κ) :
    Bridges (fun segment vertex => ¬ tolerance < deviation segment vertex) vertices
      (thin deviation tolerance vertices) := by
  rcases exists_ends vertices with rfl | ⟨vertex, rfl⟩ | ⟨first, interior, last, rfl⟩
  · exact .nil
  · rw [thin_singleton]
    exact .last vertex
  · rw [thin_eq_thinBetween positive]
    exact thinBetween_bridges positive deviation first last interior (.last last)

end Simplify

/-! ## Shapes -/

namespace Gauge

section Floating

variable {κ δ : Type} [Zero δ] [LT δ]

/-- A vertex is not beyond the tolerance from a segment. -/
def Tolerates (gauge : Gauge κ δ) (tolerance : δ) (segment : Segment κ) (vertex : κ) : Prop :=
  ¬ tolerance < gauge.deviation segment vertex

variable [DecidableLT δ] [FloatingOrder δ] {tolerance : δ}

theorem simplifyLine_bridges (gauge : Gauge κ δ) (positive : 0 < tolerance) (vertices : List κ) :
    Bridges (gauge.Tolerates tolerance) vertices (gauge.simplifyLine tolerance vertices) := by
  rw [simplifyLine_eq_thin gauge positive]
  exact Simplify.thin_bridges positive gauge.deviation vertices

variable [BEq κ]

theorem simplifyRing_bridges (gauge : Gauge κ δ) (positive : 0 < tolerance) (ring : List κ) :
    Bridges (gauge.Tolerates tolerance) ring (gauge.simplifyRing tolerance ring) := by
  rcases simplifyRing_eq_or gauge tolerance ring with back | thinned
  · rw [back]
    exact .refl _ ring
  · rw [thinned]
    exact Simplify.thin_bridges positive gauge.deviation ring

/-- A polygon keeps its rings, and each of them bridges what it leaves out. -/
theorem simplifyPolygon_bridges (gauge : Gauge κ δ) (positive : 0 < tolerance)
    {polygon : Polygon κ} (closed : polygon.IsClosed) :
    List.Forall₂ (Bridges (gauge.Tolerates tolerance)) polygon.rings
      (gauge.simplifyPolygon tolerance polygon).rings := by
  rcases simplifyPolygon_eq_or gauge tolerance closed with back | simplified
  · rw [back, List.forall₂_same]
    exact fun ring _ => .refl _ ring
  · rw [simplified, rings_simplifyRings, List.forall₂_map_right_iff, List.forall₂_same]
    exact fun ring _ => simplifyRing_bridges gauge positive ring

/-- An area keeps its polygons and their rings, and each ring bridges what it leaves out. -/
theorem simplifyArea_bridges (gauge : Gauge κ δ) (positive : 0 < tolerance)
    {polygons : List (Polygon κ)} (closed : ∀ polygon ∈ polygons, polygon.IsClosed) :
    List.Forall₂ (fun polygon simplified =>
        List.Forall₂ (Bridges (gauge.Tolerates tolerance)) polygon.rings simplified.rings)
      polygons (gauge.simplifyArea tolerance polygons) := by
  rcases simplifyArea_eq_or gauge tolerance polygons with back | simplified
  · rw [back, List.forall₂_same]
    intro polygon _
    rw [List.forall₂_same]
    exact fun ring _ => .refl _ ring
  · rw [simplified, List.forall₂_map_right_iff, List.forall₂_same]
    exact fun polygon member => simplifyPolygon_bridges gauge positive (closed polygon member)

end Floating

/-- Whatever the deviations, a simplified line or ring keeps its ends, and a vertex that is left
out deviates by at most the tolerance from the segment between the vertices that are kept next
to it.  An area with closed rings keeps its polygons and their rings, in order, and this holds of
every ring. -/
theorem simplify_staysNear {κ δ : Type} [BEq κ] [Zero δ] [LinearOrder δ] (gauge : Gauge κ δ)
    (tolerance : δ) (positive : 0 < tolerance) :
    let near segment vertex := gauge.deviation segment vertex ≤ tolerance
    (∀ vertices, StaysNear near vertices (gauge.simplifyLine tolerance vertices)) ∧
      (∀ ring, StaysNear near ring (gauge.simplifyRing tolerance ring)) ∧
      ∀ polygons : List (Polygon κ), (∀ polygon ∈ polygons, polygon.IsClosed) →
        ∃ simplified, gauge.simplify (some tolerance) (.area polygons) = .area simplified ∧
          List.Forall₂ (fun polygon other =>
            List.Forall₂ (StaysNear near) polygon.rings other.rings) polygons simplified := by
  intro near
  have within_near (segment : Segment κ) (vertex : κ)
      (within : gauge.Tolerates tolerance segment vertex) : near segment vertex :=
    not_lt.mp within
  have staysNear {vertices kept : List κ}
      (bridges : Bridges (gauge.Tolerates tolerance) vertices kept) :
      StaysNear near vertices kept :=
    (bridges.mono within_near).staysNear
  refine ⟨?_, ?_, ?_⟩
  · intro vertices
    exact staysNear (simplifyLine_bridges gauge positive vertices)
  · intro ring
    exact staysNear (simplifyRing_bridges gauge positive ring)
  · intro polygons closed
    refine ⟨_, rfl, (simplifyArea_bridges gauge positive closed).imp ?_⟩
    intro polygon other rings
    exact rings.imp fun _ _ bridges => staysNear bridges

/-- A triangle with a slight bulge in its long side, and a hole. -/
def bulgingField : Polygon (Coord ℚ) where
  exterior := [⟨0, 0⟩, ⟨8, 0⟩, ⟨3, 4⟩, ⟨0, 6⟩, ⟨0, 0⟩]
  interiors := [[⟨1, 1⟩, ⟨2, 1⟩, ⟨1, 2⟩, ⟨1, 1⟩]]

theorem simplify_staysNear_bulgingField :
    (0 : ℚ) < 0.25 ∧ bulgingField.IsClosed ∧
      (plane ℚ).simplifyRing 0.25 bulgingField.exterior = [⟨0, 0⟩, ⟨8, 0⟩, ⟨0, 6⟩, ⟨0, 0⟩] ∧
      StaysNear (fun segment vertex => (plane ℚ).deviation segment vertex ≤ 0.25)
        bulgingField.exterior ((plane ℚ).simplifyRing 0.25 bulgingField.exterior) ∧
      ∃ simplified, (plane ℚ).simplify (some 0.25) (.area [bulgingField]) = .area simplified ∧
        List.Forall₂ (fun polygon other => List.Forall₂
            (StaysNear fun segment vertex => (plane ℚ).deviation segment vertex ≤ 0.25)
            polygon.rings other.rings) [bulgingField] simplified := by
  have positive : (0 : ℚ) < 0.25 := by decide +kernel
  have closed : bulgingField.IsClosed := by
    unfold Polygon.IsClosed
    decide +kernel
  obtain ⟨_, ring, area⟩ := simplify_staysNear (plane ℚ) 0.25 positive
  refine ⟨positive, closed, by decide +kernel, ring _, area [bulgingField] ?_⟩
  intro polygon member
  rw [List.mem_singleton.mp member]
  exact closed

end Gauge

end Gazetteer
