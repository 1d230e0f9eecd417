import Gazetteer.Proofs.Osm.Decomposition
import Gazetteer.Proofs.Plane.Comparison

/-!
# Merging follows the cycles

While a path grows, the pieces that are left and the path itself stay paired and keep their
cycles.  A path that cannot grow any further meets no other piece, so it meets itself: it has
run around its whole cycle.
-/

namespace Gazetteer.Osm

variable {κ : Type} [BEq κ]

/-! ## What a path does while it grows -/

section Growing

variable [PartialEquivBEq κ]

/-- Pieces of which some have been joined: still paired, and with the same cycles. -/
structure Contracts (before after : List (List κ)) : Prop where
  paired : Paired after
  exists_before : ∀ cycles, Decomposes cycles after → ∃ whole, Decomposes whole before
  exists_after : ∀ cycles, Decomposes cycles before →
    ∃ joined, Decomposes joined after ∧ (outlines joined).Perm (outlines cycles)

namespace Contracts

variable {before middle after : List (List κ)}

theorem refl (paired : Paired before) : Contracts before before where
  paired := paired
  exists_before cycles decomposes := ⟨cycles, decomposes⟩
  exists_after cycles decomposes := ⟨cycles, decomposes, .refl _⟩

theorem trans (contracts : Contracts before middle) (again : Contracts middle after) :
    Contracts before after where
  paired := again.paired
  exists_before cycles decomposes := by
    obtain ⟨whole, decomposes⟩ := again.exists_before cycles decomposes
    exact contracts.exists_before whole decomposes
  exists_after cycles decomposes := by
    obtain ⟨joined, decomposes, same⟩ := contracts.exists_after cycles decomposes
    obtain ⟨again, decomposes, alsoSame⟩ := again.exists_after joined decomposes
    exact ⟨again, decomposes, alsoSame.trans same⟩

theorem of_relisted (paired : Paired before) (relisted : Relisted before after) :
    Contracts before after where
  paired := paired.of_relisted relisted
  exists_before cycles decomposes := ⟨cycles, decomposes.of_relisted relisted.symm⟩
  exists_after cycles decomposes := ⟨cycles, decomposes.of_relisted relisted, .refl _⟩

theorem of_joins {start next : List κ} {others : List (List κ)}
    (paired : Paired (start :: next :: others)) (joins : Joins start next) :
    Contracts (start :: next :: others) ((start ++ next.tail) :: others) where
  paired := paired.join joins
  exists_before _ decomposes := decomposes.exists_split joins (paired.long next (by simp))
  exists_after _ decomposes := decomposes.exists_join paired joins

end Contracts

variable {path longer : List κ} {pieces others : List (List κ)}

/-- One join contracts, whichever ends it joins. -/
theorem contracts_of_joinFirst? (paired : Paired (path :: pieces))
    (joined : joinFirst? path pieces = some (longer, others)) :
    Contracts (path :: pieces) (longer :: others) := by
  obtain ⟨start, next, relisted, joins, again⟩ :=
    exists_relisted_of_joinFirst? (paired.ne_nil List.mem_cons_self) joined
  have contracts := Contracts.of_relisted paired relisted
  exact contracts.trans <| (Contracts.of_joins contracts.paired joins).trans <|
    .of_relisted (contracts.paired.join joins) again

/-- A path that is done growing is closed. -/
theorem joins_self_of_joinFirst? (paired : Paired (path :: pieces))
    (stuck : joinFirst? path pieces = none) : Joins path path := by
  apply paired.joins_self
  intro vertex isEnd other isOther
  obtain ⟨piece, member, isOther⟩ := mem_ends_iff.mp isOther
  have apart := joinFirst?_eq_none_iff.mp stuck piece member
  exact (join?_eq_none_iff (paired.ne_nil List.mem_cons_self)).mp apart vertex isEnd other
    (mem_ends_iff.mpr ⟨piece, List.mem_singleton_self _, isOther⟩)

/-- A path grows until it is closed. -/
theorem grow_contracts (paired : Paired (path :: pieces)) :
    Contracts (path :: pieces) ((grow path pieces).1 :: (grow path pieces).2) ∧
      Joins (grow path pieces).1 (grow path pieces).1 := by
  fun_induction grow path pieces with
  | case1 path pieces stuck => exact ⟨.refl paired, joins_self_of_joinFirst? paired stuck⟩
  | case2 path pieces longer others joined ih =>
      have contracts := contracts_of_joinFirst? paired joined
      obtain ⟨more, closed⟩ := ih contracts.paired
      exact ⟨contracts.trans more, closed⟩

end Growing

/-! ## Rings -/

theorem isRing_of_mem_mergeRings {pieces : List (List κ)} {ring : List κ}
    (member : ring ∈ mergeRings pieces) : isRing ring = true := by
  fun_induction mergeRings pieces with
  | case1 => contradiction
  | case2 piece rest closed ih =>
      rcases List.mem_cons.mp member with rfl | member
      · exact closed
      · exact ih member
  | case3 piece rest _ grown closed ih =>
      rcases List.mem_cons.mp member with rfl | member
      · exact closed
      · exact ih member
  | case4 piece rest _ grown _ ih => exact ih member

section Merging

variable [PartialEquivBEq κ]

theorem isClosed_iff_joins_self {path : List κ} (nonempty : path ≠ []) :
    isClosed path = true ↔ Joins path path := by
  obtain ⟨first, last, isFirst, isLast⟩ := exists_ends_of_ne_nil nonempty
  simp only [isClosed, Joins, isFirst, isLast, Option.mem_some_iff, exists_eq_left',
    Option.some_beq_some]
  exact ⟨BEq.symm, BEq.symm⟩

theorem isRing_eq_of_joins_self {path : List κ} (closed : Joins path path) :
    isRing path = decide (4 ≤ path.length) := by
  have nonempty : path ≠ [] := by
    obtain ⟨last, isLast, _⟩ := closed
    rintro rfl
    contradiction
  rw [isRing, (isClosed_iff_joins_self nonempty).mpr closed, Bool.true_and]

/-- The first piece is made into a path that runs along its whole cycle, and merging goes on
with the pieces of the others. -/
theorem exists_contracts_of_cons {piece : List κ} {rest : List (List κ)}
    (paired : Paired (piece :: rest)) :
    ∃ path left, left.length ≤ rest.length ∧ Contracts (piece :: rest) (path :: left) ∧
      Joins path path ∧ mergeRings (piece :: rest) =
        if 4 ≤ path.length then path :: mergeRings left else mergeRings left := by
  rw [mergeRings]
  by_cases whole : isRing piece = true
  · have closed := (isClosed_iff_joins_self (paired.ne_nil List.mem_cons_self)).mp
      (Bool.and_eq_true_iff.mp whole).1
    refine ⟨piece, rest, le_rfl, .refl paired, closed, ?_⟩
    simp only [isRing_eq_of_joins_self closed, decide_eq_true_eq] at whole ⊢
    simp only [if_pos whole]
  · obtain ⟨contracts, closed⟩ := grow_contracts paired
    refine ⟨_, _, length_grow_le piece rest, contracts, closed, ?_⟩
    simp only [if_neg whole, isRing_eq_of_joins_self closed, decide_eq_true_eq]

theorem exists_decomposes {pieces : List (List κ)} (paired : Paired pieces) :
    ∃ cycles, Decomposes cycles pieces := by
  match pieces with
  | [] => exact ⟨[], .refl _, by simp⟩
  | piece :: rest =>
      obtain ⟨path, left, shorter, contracts, closed, _⟩ := exists_contracts_of_cons paired
      obtain ⟨cycles, decomposes⟩ := exists_decomposes (contracts.paired.of_closed closed)
      exact contracts.exists_before _ (decomposes.cons_closed closed)
termination_by pieces.length
decreasing_by exact Nat.lt_succ_of_le shorter

/-- The rings that cycles run along, without those that are too short to enclose something. -/
def ringsOf (cycles : List (List (List κ))) : List (List κ) :=
  (cycles.map along).filter fun ring => 4 ≤ ring.length

theorem map_outline_ringsOf (cycles : List (List (List κ))) :
    (ringsOf cycles).map outline =
      (outlines cycles).filter fun outline => 3 ≤ vertexCount outline := by
  have sameSize : ((fun outline => decide (3 ≤ vertexCount outline)) ∘ outline) =
      fun ring : List κ => decide (4 ≤ ring.length) := by
    funext ring
    simp only [Function.comp_apply, vertexCount_outline, decide_eq_decide]
    omega
  rw [ringsOf, ← sameSize, ← List.filter_map, outlines, List.map_map]
  rfl

theorem mergeRings_perm {pieces : List (List κ)} (paired : Paired pieces)
    {cycles : List (List (List κ))} (decomposes : Decomposes cycles pieces) :
    ((mergeRings pieces).map outline).Perm ((ringsOf cycles).map outline) := by
  match pieces with
  | [] =>
      rw [decomposes.eq_nil, mergeRings]
      exact .refl _
  | piece :: rest =>
      obtain ⟨path, left, shorter, contracts, closed, merged⟩ := exists_contracts_of_cons paired
      obtain ⟨joined, decomposes, same⟩ := contracts.exists_after cycles decomposes
      obtain ⟨remaining, decomposes, more⟩ := decomposes.exists_without contracts.paired closed
      have ih := mergeRings_perm (contracts.paired.of_closed closed) decomposes
      have perm := (more.trans same).filter fun outline => 3 ≤ vertexCount outline
      rw [← map_outline_ringsOf, List.filter_cons, ← map_outline_ringsOf, vertexCount_outline]
        at perm
      rw [merged]
      refine .trans ?_ perm
      by_cases long : 4 ≤ path.length
      · rw [if_pos long, if_pos (by simpa using by omega)]
        exact ih.cons _
      · rw [if_neg long, if_neg (by simpa using by omega)]
        exact ih
termination_by pieces.length
decreasing_by exact Nat.lt_succ_of_le shorter

/-- Pieces of which every end is met by exactly one other make up the same rings in whatever
order and directions they are listed: one for every cycle whose ring has at least four
vertices, and no other. -/
theorem mergeRings_of_paired {pieces : List (List κ)} (paired : Paired pieces) :
    (∃ cycles, Decomposes cycles pieces) ∧
      ∀ listing, Relisted listing pieces →
        (∀ ring ∈ mergeRings listing, isRing ring = true) ∧
        ((mergeRings listing).map outline).Perm ((mergeRings pieces).map outline) ∧
        ∀ cycles, Decomposes cycles pieces →
          ((mergeRings listing).map outline).Perm ((ringsOf cycles).map outline) := by
  obtain ⟨cycles, decomposes⟩ := exists_decomposes paired
  refine ⟨⟨cycles, decomposes⟩, fun listing relisted => ?_⟩
  have along (cycles) (decomposes : Decomposes cycles pieces) :=
    mergeRings_perm (paired.of_relisted relisted.symm) (decomposes.of_relisted relisted.symm)
  refine ⟨fun _ => isRing_of_mem_mergeRings, ?_, along⟩
  exact (along cycles decomposes).trans (mergeRings_perm paired decomposes).symm

end Merging

/-- A square in two halves, and a way there and back between them. -/
def squareAndDetour : List (List (Coord Float)) :=
  [[⟨0, 0⟩, ⟨1, 0⟩, ⟨1, 1⟩], [⟨5, 5⟩, ⟨6, 5⟩], [⟨0, 0⟩, ⟨0, 1⟩, ⟨1, 1⟩], [⟨6, 5⟩, ⟨5, 5⟩]]

theorem mergeRings_of_paired_squareAndDetour :
    Paired squareAndDetour ∧ (∃ cycles, Decomposes cycles squareAndDetour) ∧
      ((mergeRings squareAndDetour.reverse).map outline).Perm
        ((mergeRings squareAndDetour).map outline) := by
  have paired : Paired squareAndDetour := ⟨by decide +kernel, by decide +kernel⟩
  obtain ⟨decomposes, same⟩ := mergeRings_of_paired paired
  exact ⟨paired, decomposes, (same _ (.of_perm (List.reverse_perm _))).2.1⟩

example : mergeRings squareAndDetour = [[⟨0, 0⟩, ⟨1, 0⟩, ⟨1, 1⟩, ⟨0, 1⟩, ⟨0, 0⟩]] := by
  decide +kernel

end Gazetteer.Osm
