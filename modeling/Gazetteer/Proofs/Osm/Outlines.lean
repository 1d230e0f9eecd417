import Gazetteer.Proofs.Osm.Pieces
import Mathlib.Data.List.Cycle

/-!
# Cycles of pieces and their outlines

Pieces each of which begins where the one before ends, and the first where the last ends,
run around a ring.  Its outline is what is left when it does not matter where the ring begins
and in which direction it is drawn.  Vertices are only compared: equal ones are not told
apart, as the two signs of zero are not.
-/

namespace Gazetteer.Osm

variable {κ : Type} [BEq κ]

/-! ## Cycles -/

/-- Pieces that run around a ring. -/
structure IsCycle (cycle : List (List κ)) : Prop where
  nonempty : cycle ≠ []
  joins : (cycle : Cycle (List κ)).Chain Joins

/-- The ring that a path of pieces runs along: every vertex at which one piece ends and the next
begins is written once. -/
def along : List (List κ) → List κ
  | [] => []
  | piece :: rest => piece ++ rest.flatMap List.tail

namespace IsCycle

variable {cycle : List (List κ)}

theorem rotate {before after : List (List κ)} (isCycle : IsCycle (before ++ after)) :
    IsCycle (after ++ before) where
  nonempty := by
    intro empty
    apply isCycle.nonempty
    simpa [and_comm] using empty
  joins := by
    rw [Cycle.coe_eq_coe.mpr List.isRotated_append]
    exact isCycle.joins

theorem reverse [PartialEquivBEq κ] (isCycle : IsCycle cycle) :
    IsCycle (cycle.map List.reverse).reverse where
  nonempty := by simpa using isCycle.nonempty
  joins := by
    obtain ⟨piece, rest, rfl⟩ := List.exists_cons_of_ne_nil isCycle.nonempty
    have joins := (Cycle.chain_coe_cons ..).mp isCycle.joins
    have turned : ((piece :: rest).map List.reverse).reverse =
        (rest.map List.reverse).reverse ++ [piece.reverse] := by simp
    rw [turned, Cycle.coe_eq_coe.mpr List.isRotated_append, List.singleton_append,
      Cycle.chain_coe_cons]
    have whole : piece.reverse :: ((rest.map List.reverse).reverse ++ [piece.reverse]) =
        ((piece :: (rest ++ [piece])).map List.reverse).reverse := by simp
    rw [whole, List.isChain_reverse, List.isChain_map]
    exact joins.imp fun _ _ => Joins.reverse

/-- Every piece of a cycle can be the first one. -/
theorem exists_rotated (isCycle : IsCycle cycle) {piece : List κ} (member : piece ∈ cycle) :
    ∃ before after, cycle = before ++ piece :: after ∧ IsCycle (piece :: (after ++ before)) := by
  obtain ⟨before, after, rfl⟩ := List.append_of_mem member
  exact ⟨before, after, rfl, isCycle.rotate⟩

/-- Every piece of a cycle has vertices. -/
theorem ne_nil_of_mem (isCycle : IsCycle cycle) {piece : List κ} (member : piece ∈ cycle) :
    piece ≠ [] := by
  obtain ⟨before, after, _, rotated⟩ := isCycle.exists_rotated member
  obtain ⟨next, others, whole⟩ := List.exists_cons_of_ne_nil
    (List.append_ne_nil_of_right_ne_nil (after ++ before) (List.cons_ne_nil piece []))
  have joins := (Cycle.chain_coe_cons ..).mp rotated.joins
  rw [whole, List.isChain_cons_cons] at joins
  obtain ⟨⟨last, isLast, _⟩, _⟩ := joins
  rintro rfl
  contradiction

end IsCycle

/-! ## Outlines -/

section Outline

variable (κ) in
/-- Vertices, of which equal ones are not told apart.  An undefined vertex is the same as
itself, though it is not equal to itself. -/
def sameVertex [PartialEquivBEq κ] : Setoid κ where
  r first second := first = second ∨ (first == second) = true
  iseqv :=
    { refl := fun _ => Or.inl rfl
      symm := by
        rintro first second (rfl | equal)
        · exact Or.inl rfl
        · exact Or.inr (BEq.symm equal)
      trans := by
        rintro first second third (rfl | equal) (rfl | again)
        · exact Or.inl rfl
        · exact Or.inr again
        · exact Or.inr equal
        · exact Or.inr (BEq.trans equal again) }

variable [PartialEquivBEq κ]

/-- The place of a vertex. -/
def spot (vertex : κ) : Quotient (sameVertex κ) :=
  Quotient.mk _ vertex

theorem spot_eq_of_beq {first second : κ} (equal : (first == second) = true) :
    spot first = spot second :=
  Quotient.sound (Or.inr equal)

/-- The vertices of a closed ring in cyclic order, without the last, which repeats the
first. -/
def loop (ring : List κ) : Cycle (Quotient (sameVertex κ)) :=
  (ring.dropLast.map spot : List (Quotient (sameVertex κ)))

/-- A closed ring, where it does not matter where it begins and in which direction it is
drawn. -/
def outline (ring : List κ) : Sym2 (Cycle (Quotient (sameVertex κ))) :=
  s(loop ring, (loop ring).reverse)

/-- The number of vertices that an outline goes through. -/
def vertexCount {α : Type} : Sym2 (Cycle α) → Nat :=
  Sym2.lift ⟨fun one other => max one.length other.length, fun _ _ => max_comm ..⟩

@[simp]
theorem vertexCount_outline (ring : List κ) : vertexCount (outline ring) = ring.length - 1 := by
  simp [vertexCount, outline, loop]

omit [BEq κ] [PartialEquivBEq κ] in
theorem isRotated_of_concat_eq_cons {one other : List κ} {vertex : κ}
    (same : one ++ [vertex] = vertex :: other) : one ~r other := by
  cases one with
  | nil => simp_all
  | cons first rest =>
      obtain ⟨rfl, rfl⟩ := List.cons.inj same
      exact (List.isRotated_concat _ _).symm

/-- Along joined pieces, leaving out the beginning of every next piece is the same as leaving
out the end of every one but the last. -/
theorem exists_map_spot_along {piece : List κ} {rest : List (List κ)}
    (joins : (piece :: rest).IsChain Joins) (nonempty : ∀ each ∈ piece :: rest, each ≠ []) :
    ∃ last ∈ (piece :: rest).getLast?, ∃ vertex ∈ last.getLast?,
      (along (piece :: rest)).map spot =
        ((piece :: rest).flatMap List.dropLast).map spot ++ [spot vertex] := by
  induction rest generalizing piece with
  | nil =>
      have isLast := List.getLast?_eq_some_getLast (nonempty piece List.mem_cons_self)
      refine ⟨piece, rfl, _, isLast, ?_⟩
      simp only [along, List.flatMap_cons, List.flatMap_nil, List.append_nil]
      rw [← List.map_singleton, ← List.map_append, List.dropLast_append_getLast? _ isLast]
  | cons next rest ih =>
      obtain ⟨⟨vertex, isEnd, head, isHead, equal⟩, others⟩ := List.isChain_cons_cons.mp joins
      obtain ⟨last, isLast, final, isFinal, same⟩ :=
        ih others fun each member => nonempty each (List.mem_cons_of_mem _ member)
      refine ⟨last, isLast, final, isFinal, ?_⟩
      obtain ⟨tail, rfl⟩ := List.head?_eq_some_iff.mp isHead
      have moved : (along (piece :: (head :: tail) :: rest)).map spot =
          piece.dropLast.map spot ++ (along ((head :: tail) :: rest)).map spot := by
        conv_lhs => rw [along, ← List.dropLast_append_getLast? vertex isEnd]
        simp [along, spot_eq_of_beq equal]
      rw [moved, same, ← List.append_assoc, ← List.map_append, ← List.flatMap_cons]

/-- The end of the last piece of a cycle is the beginning of its first. -/
theorem IsCycle.exists_map_spot_along {piece : List κ} {rest : List (List κ)}
    (isCycle : IsCycle (piece :: rest)) :
    ∃ head ∈ piece.head?, (along (piece :: rest)).map spot =
      ((piece :: rest).flatMap List.dropLast).map spot ++ [spot head] := by
  have joins := (Cycle.chain_coe_cons ..).mp isCycle.joins
  rw [← List.cons_append, List.isChain_append] at joins
  obtain ⟨path, _, closes⟩ := joins
  obtain ⟨last, isLast, vertex, isVertex, same⟩ :=
    Osm.exists_map_spot_along path fun _ => isCycle.ne_nil_of_mem
  obtain ⟨final, isFinal, head, isHead, equal⟩ := closes last isLast piece rfl
  obtain rfl := Option.mem_unique isVertex isFinal
  exact ⟨head, isHead, by rw [same, spot_eq_of_beq equal]⟩

theorem IsCycle.loop_along {cycle : List (List κ)} (isCycle : IsCycle cycle) :
    loop (along cycle) = ((cycle.flatMap List.dropLast).map spot : List _) := by
  obtain ⟨piece, rest, rfl⟩ := List.exists_cons_of_ne_nil isCycle.nonempty
  obtain ⟨head, _, same⟩ := isCycle.exists_map_spot_along
  rw [loop, List.map_dropLast, same, List.dropLast_concat]

/-- A ring may as well be said to begin behind its first vertex and to end at it. -/
theorem IsCycle.loop_along_eq_tail {cycle : List (List κ)} (isCycle : IsCycle cycle) :
    loop (along cycle) = ((cycle.flatMap List.tail).map spot : List _) := by
  obtain ⟨piece, rest, rfl⟩ := List.exists_cons_of_ne_nil isCycle.nonempty
  obtain ⟨head, isHead, same⟩ := isCycle.exists_map_spot_along
  obtain ⟨tail, rfl⟩ := List.head?_eq_some_iff.mp isHead
  have begins : (along ((head :: tail) :: rest)).map spot =
      spot head :: (((head :: tail) :: rest).flatMap List.tail).map spot := by
    simp [along]
  have shifted := same.symm.trans begins
  rw [isCycle.loop_along, Cycle.coe_eq_coe]
  exact isRotated_of_concat_eq_cons shifted

/-- The outline of a cycle does not depend on where the cycle begins. -/
theorem IsCycle.outline_rotated {before after : List (List κ)}
    (isCycle : IsCycle (before ++ after)) :
    outline (along (after ++ before)) = outline (along (before ++ after)) := by
  have same : loop (along (after ++ before)) = loop (along (before ++ after)) := by
    rw [isCycle.loop_along, isCycle.rotate.loop_along, Cycle.coe_eq_coe]
    simp only [List.flatMap_append, List.map_append]
    exact List.isRotated_append
  rw [outline, outline, same]

theorem IsCycle.outline_reversed {cycle : List (List κ)} (isCycle : IsCycle cycle) :
    outline (along (cycle.map List.reverse).reverse) = outline (along cycle) := by
  have turned : (cycle.map List.reverse).reverse.flatMap List.dropLast =
      (cycle.flatMap List.tail).reverse := by
    rw [List.reverse_flatMap, ← List.map_reverse, List.flatMap_map]
    simp [List.dropLast_reverse, Function.comp_def]
  have same : loop (along (cycle.map List.reverse).reverse) = (loop (along cycle)).reverse := by
    rw [isCycle.reverse.loop_along, turned, isCycle.loop_along_eq_tail, List.map_reverse,
      Cycle.reverse_coe]
  rw [outline, outline, same, Cycle.reverse_reverse, Sym2.eq_swap]

end Outline

end Gazetteer.Osm
