import Gazetteer.Proofs.Osm.Pieces
import Gazetteer.Proofs.Plane.Comparison

/-!
# Pieces that belong to no ring

A piece one end of which meets no other can be part of no ring.  Listed last, it is only
joined to a path that no other piece fits.  An open path is dropped with or without it, but a
path that has just been closed is not left alone either: if the piece begins where the path
closes, the path is opened again and its ring is lost.
-/

namespace Gazetteer.Osm

variable {κ : Type} [BEq κ]

/-! ## One more piece at the end -/

theorem joinFirst?_concat_of_some {path stray longer : List κ} {pieces others : List (List κ)}
    (joined : joinFirst? path pieces = some (longer, others)) :
    joinFirst? path (pieces ++ [stray]) = some (longer, others ++ [stray]) := by
  induction pieces generalizing longer others with
  | nil => contradiction
  | cons piece rest ih =>
      rw [List.cons_append, joinFirst?]
      rw [joinFirst?] at joined
      cases fits : join? path piece with
      | some _ => simp_all
      | none =>
          simp only [fits, Option.map_eq_some_iff, Prod.mk.injEq, Prod.exists] at joined
          obtain ⟨path, tail, found, rfl, rfl⟩ := joined
          simp [ih found]

theorem joinFirst?_concat_of_none {path : List κ} {pieces : List (List κ)} (stray : List κ)
    (stuck : joinFirst? path pieces = none) :
    joinFirst? path (pieces ++ [stray]) =
      (join? path stray).map fun longer => (longer, pieces) := by
  induction pieces with
  | nil => cases fits : join? path stray <;> simp [joinFirst?, fits]
  | cons piece rest ih =>
      have misfits := joinFirst?_eq_none_iff.mp stuck
      rw [List.cons_append, joinFirst?, misfits piece List.mem_cons_self,
        ih (joinFirst?_eq_none_iff.mpr fun other member => misfits other (.tail _ member))]
      cases join? path stray <;> rfl

theorem grow_of_stuck {path : List κ} {pieces : List (List κ)}
    (stuck : joinFirst? path pieces = none) : grow path pieces = (path, pieces) := by
  rw [grow]
  split
  · rfl
  · simp_all

theorem grow_of_joined {path longer : List κ} {pieces others : List (List κ)}
    (joined : joinFirst? path pieces = some (longer, others)) :
    grow path pieces = grow longer others := by
  rw [grow]
  split
  · simp_all
  · simp_all

theorem joinFirst?_grow (path : List κ) (pieces : List (List κ)) :
    joinFirst? (grow path pieces).1 (grow path pieces).2 = none := by
  fun_induction grow path pieces with
  | case1 path pieces stuck => exact stuck
  | case2 path pieces longer others joined ih => exact ih

/-! ## Strays -/

/-- The two ends of a piece, in either order. -/
def HasEnds (piece : List κ) (one other : κ) : Prop :=
  piece.head? = some one ∧ piece.getLast? = some other ∨
    piece.head? = some other ∧ piece.getLast? = some one

omit [BEq κ] in
theorem HasEnds.mem_ends_iff {piece : List κ} {one other : κ} (hasEnds : HasEnds piece one other)
    {vertex : κ} : vertex ∈ ends [piece] ↔ vertex = one ∨ vertex = other := by
  rcases hasEnds with ⟨isHead, isLast⟩ | ⟨isHead, isLast⟩
  · simp [ends, isHead, isLast]
  · simp [ends, isHead, isLast, or_comm]

omit [BEq κ] in
theorem HasEnds.of_undirected {piece turned : List κ} {one other : κ}
    (hasEnds : HasEnds piece one other) (same : undirected turned = undirected piece) :
    HasEnds turned one other := by
  rcases undirected_eq_iff.mp same with rfl | rfl
  · exact hasEnds
  · simpa [HasEnds, and_comm, or_comm] using hasEnds

/-- A piece with two different ends is open. -/
theorem HasEnds.isRing_eq_false [PartialEquivBEq κ] {piece : List κ} {one other : κ}
    (hasEnds : HasEnds piece one other) (differ : (other == one) = false) :
    isRing piece = false := by
  have alsoDiffer : (one == other) = false := BEq.symm_false differ
  rcases hasEnds with ⟨isHead, isLast⟩ | ⟨isHead, isLast⟩
  · simp [isRing, isClosed, isHead, isLast, alsoDiffer]
  · simp [isRing, isClosed, isHead, isLast, differ]

/-- A piece that is listed with others and of which one end, `free`, is an end of no other
and not its own other end, `attached`, either. -/
structure IsStray (stray : List κ) (attached free : κ) (pieces : List (List κ)) : Prop where
  strayLong : 2 ≤ stray.length
  long : ∀ piece ∈ pieces, 2 ≤ piece.length
  hasEnds : HasEnds stray attached free
  differ : (free == attached) = false
  loose : ∀ vertex ∈ ends pieces, (free == vertex) = false

namespace IsStray

variable {stray path longer : List κ} {attached free : κ} {pieces others : List (List κ)}

theorem ne_nil (isStray : IsStray stray attached free pieces) {piece : List κ}
    (member : piece ∈ pieces) : piece ≠ [] := by
  rintro rfl
  have long := isStray.long [] member
  contradiction

theorem of_ends_subset (isStray : IsStray stray attached free pieces)
    (long : ∀ piece ∈ others, 2 ≤ piece.length) (subset : ends others ⊆ ends pieces) :
    IsStray stray attached free others :=
  { isStray with long, loose := fun vertex member => isStray.loose vertex (subset member) }

theorem of_cons (isStray : IsStray stray attached free (path :: pieces)) :
    IsStray stray attached free pieces :=
  isStray.of_ends_subset (fun piece member => isStray.long piece (.tail _ member))
    fun _ member => mem_ends_cons.mpr (Or.inr member)

theorem of_joinFirst? (isStray : IsStray stray attached free (path :: pieces))
    (joined : joinFirst? path pieces = some (longer, others)) :
    IsStray stray attached free (longer :: others) :=
  have ⟨long, subset⟩ := ends_subset_of_joinFirst? isStray.long joined
  isStray.of_ends_subset long subset

theorem grow (isStray : IsStray stray attached free (path :: pieces)) :
    IsStray stray attached free ((grow path pieces).1 :: (grow path pieces).2) :=
  have ⟨long, subset⟩ := ends_subset_of_grow isStray.long
  isStray.of_ends_subset long subset

variable [PartialEquivBEq κ]

/-- A stray piece can be joined to a path only where it is attached. -/
theorem join?_eq_none_iff (isStray : IsStray stray attached free (path :: pieces)) :
    join? path stray = none ↔ ∀ vertex ∈ ends [path], (vertex == attached) = false := by
  rw [Osm.join?_eq_none_iff (isStray.ne_nil List.mem_cons_self)]
  simp only [isStray.hasEnds.mem_ends_iff, forall_eq_or_imp, forall_eq]
  refine forall₂_congr fun vertex isEnd => and_iff_left ?_
  exact BEq.symm_false (isStray.loose vertex (mem_ends_cons.mpr (Or.inl isEnd)))

/-- Joined to a path that no other piece fits, it is attached where no other piece is. -/
theorem beq_attached_eq_false (isStray : IsStray stray attached free (path :: pieces))
    (stuck : joinFirst? path pieces = none) (joined : join? path stray = some longer)
    {vertex : κ} (member : vertex ∈ ends pieces) : (vertex == attached) = false := by
  have meets : ∃ other ∈ ends [path], (other == attached) = true := by
    by_contra apart
    push Not at apart
    have misfits := isStray.join?_eq_none_iff.mpr fun other isEnd =>
      Bool.eq_false_iff.mpr (apart other isEnd)
    simp [misfits] at joined
  obtain ⟨other, isEnd, equal⟩ := meets
  obtain ⟨piece, isPiece, isVertex⟩ := mem_ends_iff.mp member
  have misfits := joinFirst?_eq_none_iff.mp stuck piece isPiece
  rw [Osm.join?_eq_none_iff (isStray.ne_nil List.mem_cons_self)] at misfits
  have apart := misfits other isEnd vertex
    (mem_ends_iff.mpr ⟨piece, List.mem_singleton_self piece, isVertex⟩)
  exact BEq.symm_false ((BEq.congr_left equal).symm.trans apart)

/-- It is joined to a ring only if the ring closes where it is attached. -/
theorem join?_eq_none_iff_of_isRing (isStray : IsStray stray attached free (path :: pieces))
    (closed : isRing path = true) :
    join? path stray = none ↔ ∀ vertex ∈ path.head?, (vertex == attached) = false := by
  obtain ⟨first, last, isFirst, isLast⟩ :=
    exists_ends_of_ne_nil (isStray.ne_nil List.mem_cons_self)
  have equal : (first == last) = true := by
    simpa [isClosed, isFirst, isLast] using (Bool.and_eq_true_iff.mp closed).1
  rw [isStray.join?_eq_none_iff]
  simp only [ends, isFirst, isLast, List.flatMap_cons, List.flatMap_nil, Option.toList_some,
    List.append_nil, List.cons_append, List.nil_append, List.forall_mem_cons,
    List.not_mem_nil, false_imp_iff, implies_true, and_true, Option.mem_some_iff, forall_eq']
  exact and_iff_left_of_imp fun apart => (BEq.congr_left equal).symm.trans apart

/-- A path to which the stray piece is joined now ends where that piece is free. -/
theorem exists_hasEnds_of_join? (isStray : IsStray stray attached free (path :: pieces))
    (joined : join? path stray = some longer) :
    ∃ kept ∈ ends [path], HasEnds longer kept free := by
  obtain ⟨start, next, samePath, samePiece, ⟨last, isLast, head, isHead, equal⟩, sameLonger⟩ :=
    exists_joins_of_join? (isStray.ne_nil List.mem_cons_self) joined
  have isEnd : last ∈ ends [path] := by
    have isEnd : last ∈ ends [start] := by simp [ends, Option.mem_def.mp isLast]
    exact Relisted.mem_ends (.cons samePath (.refl [])) isEnd
  have apart := isStray.loose last (mem_ends_cons.mpr (Or.inl isEnd))
  -- the piece is joined at its attached end, so that the other one is the end of the path
  have isFree : next.getLast? = some free := by
    rcases isStray.hasEnds.of_undirected samePiece with ⟨_, isFree⟩ | ⟨isFree, _⟩
    · exact isFree
    · obtain rfl := Option.some.inj (isFree.symm.trans isHead)
      exact absurd (BEq.symm equal) (Bool.eq_false_iff.mp apart)
  have long : 2 ≤ next.length := by
    have relisted : Relisted [stray] [next] := .cons samePiece.symm (.refl [])
    refine relisted.le_length ?_ next (List.mem_singleton_self next)
    simpa using isStray.strayLong
  have nonempty : start ≠ [] := by
    rintro rfl
    contradiction
  obtain ⟨kept, _, isKept, _⟩ := exists_ends_of_ne_nil nonempty
  refine ⟨kept, ?_, HasEnds.of_undirected (Or.inl ⟨?_, ?_⟩) sameLonger⟩
  · have isEnd : kept ∈ ends [start] := by simp [ends, isKept]
    exact Relisted.mem_ends (.cons samePath (.refl [])) isEnd
  · rw [List.head?_append_of_ne_nil _ nonempty, isKept]
  · rw [getLast?_append_tail start long, isFree]

/-- With the stray piece, a path that no other piece fits has come to its end, and it is open. -/
theorem stuck_of_join? (isStray : IsStray stray attached free (path :: pieces))
    (stuck : joinFirst? path pieces = none) (joined : join? path stray = some longer) :
    isRing longer = false ∧ joinFirst? longer pieces = none := by
  obtain ⟨kept, isKept, hasEnds⟩ := isStray.exists_hasEnds_of_join? joined
  refine ⟨hasEnds.isRing_eq_false (isStray.loose kept (mem_ends_cons.mpr (Or.inl isKept))), ?_⟩
  rw [joinFirst?_eq_none_iff] at stuck ⊢
  intro piece member
  have nonempty : longer ≠ [] := by
    rintro rfl
    simp [HasEnds] at hasEnds
  rw [Osm.join?_eq_none_iff nonempty]
  intro vertex isEnd other isOther
  rcases hasEnds.mem_ends_iff.mp isEnd with rfl | rfl
  · have apart := stuck piece member
    rw [Osm.join?_eq_none_iff (isStray.ne_nil List.mem_cons_self)] at apart
    exact apart vertex isKept other isOther
  · apply isStray.loose
    obtain ⟨_, isPiece, meets⟩ := mem_ends_iff.mp isOther
    obtain rfl := List.mem_singleton.mp isPiece
    exact mem_ends_iff.mpr ⟨_, .tail _ member, meets⟩

end IsStray

/-! ## Growing and merging with a stray piece -/

section Merging

variable [PartialEquivBEq κ] {stray : List κ} {attached free : κ}

/-- A path grows as it does without the stray piece, and only then takes it up if it can. -/
theorem grow_concat {path : List κ} {pieces : List (List κ)}
    (isStray : IsStray stray attached free (path :: pieces)) :
    grow path (pieces ++ [stray]) =
      match join? (grow path pieces).1 stray with
      | none => ((grow path pieces).1, (grow path pieces).2 ++ [stray])
      | some longer => (longer, (grow path pieces).2) := by
  fun_induction grow path pieces with
  | case1 path pieces stuck =>
      have joined := joinFirst?_concat_of_none stray stuck
      cases fits : join? path stray with
      | none =>
          rw [fits] at joined
          exact grow_of_stuck joined
      | some longer =>
          rw [fits] at joined
          rw [grow_of_joined joined]
          exact grow_of_stuck (isStray.stuck_of_join? stuck fits).2
  | case2 path pieces longer others joined ih =>
      rw [grow_of_joined (joinFirst?_concat_of_some joined)]
      exact ih (isStray.of_joinFirst? joined)

/-- The rings that merging makes of more than one piece. -/
def joinedRings : List (List κ) → List (List κ)
  | [] => []
  | piece :: rest =>
    if isRing piece then joinedRings rest
    else
      let grown := grow piece rest
      if isRing grown.1 then grown.1 :: joinedRings grown.2 else joinedRings grown.2
termination_by pieces => pieces.length
decreasing_by
  · simp
  · have := length_grow_le piece rest
    simp only [List.length_cons]
    omega
  · have := length_grow_le piece rest
    simp only [List.length_cons]
    omega

omit [PartialEquivBEq κ] in
/-- A ring made of pieces begins and ends where one of them does. -/
theorem mem_ends_of_mem_joinedRings {pieces : List (List κ)}
    (long : ∀ piece ∈ pieces, 2 ≤ piece.length) {ring : List κ} (member : ring ∈ joinedRings pieces)
    {vertex : κ} (isHead : vertex ∈ ring.head?) : vertex ∈ ends pieces := by
  fun_induction joinedRings pieces with
  | case1 => contradiction
  | case2 piece rest _ ih =>
      exact mem_ends_cons.mpr <| Or.inr <|
        ih (fun other isOther => long other (.tail _ isOther)) member
  | case3 piece rest _ grown _ ih =>
      obtain ⟨grownLong, subset⟩ := ends_subset_of_grow long
      apply subset
      rcases List.mem_cons.mp member with rfl | member
      · exact mem_ends_iff.mpr ⟨_, List.mem_cons_self, Or.inl isHead⟩
      · exact mem_ends_cons.mpr <| Or.inr <|
          ih (fun other isOther => grownLong other (.tail _ isOther)) member
  | case4 piece rest _ grown _ ih =>
      obtain ⟨grownLong, subset⟩ := ends_subset_of_grow long
      apply subset
      exact mem_ends_cons.mpr <| Or.inr <|
        ih (fun other isOther => grownLong other (.tail _ isOther)) member

/-- A stray piece listed last is all that is dropped exactly if no ring made of the others
closes where the piece is attached. -/
theorem mergeRings_concat_iff {pieces : List (List κ)}
    (isStray : IsStray stray attached free pieces) :
    mergeRings (pieces ++ [stray]) = mergeRings pieces ↔
      ∀ ring ∈ joinedRings pieces, ∀ vertex ∈ ring.head?, (vertex == attached) = false := by
  fun_induction mergeRings pieces with
  | case1 =>
      have notRing := isStray.hasEnds.isRing_eq_false isStray.differ
      have alone : grow stray [] = (stray, []) := grow_of_stuck rfl
      simp [mergeRings, joinedRings, notRing, alone]
  | case2 piece rest closed ih =>
      rw [List.cons_append, mergeRings, if_pos closed, joinedRings, if_pos closed,
        List.cons_inj_right]
      exact ih isStray.of_cons
  | case3 piece rest notClosed grown closed ih =>
      rw [List.cons_append, mergeRings, if_neg notClosed, joinedRings, if_neg notClosed,
        grow_concat isStray]
      have strayOfRing := isStray.grow.join?_eq_none_iff_of_isRing closed
      cases fits : join? (grow piece rest).1 stray with
      | none =>
          simp only [if_pos closed, grown, List.cons_inj_right, List.forall_mem_cons]
          rw [and_iff_right (strayOfRing.mp fits)]
          exact ih isStray.grow.of_cons
      | some longer =>
          have isOpen := (isStray.grow.stuck_of_join? (joinFirst?_grow piece rest) fits).1
          simp only [isOpen, if_pos closed, grown, List.forall_mem_cons, ← strayOfRing, fits]
          simp
  | case4 piece rest notClosed grown notRing ih =>
      rw [List.cons_append, mergeRings, if_neg notClosed, joinedRings, if_neg notClosed,
        grow_concat isStray]
      cases fits : join? (grow piece rest).1 stray with
      | none =>
          simp only [if_neg notRing, grown]
          exact ih isStray.grow.of_cons
      | some longer =>
          -- the path is dropped either way, and no ring can be made that closes at its end
          have stuck := joinFirst?_grow piece rest
          have isOpen := (isStray.grow.stuck_of_join? stuck fits).1
          simp only [isOpen, if_neg notRing, grown, Bool.false_eq_true, if_false, true_iff]
          intro ring member vertex isHead
          exact isStray.grow.beq_attached_eq_false stuck fits
            (mem_ends_of_mem_joinedRings isStray.grow.of_cons.long member isHead)

end Merging

/-- A square in two halves, which are joined into a ring that closes at the first vertex. -/
def squareHalves : List (List (Coord Float)) :=
  [[⟨0, 0⟩, ⟨1, 0⟩, ⟨1, 1⟩], [⟨1, 1⟩, ⟨0, 1⟩, ⟨0, 0⟩]]

theorem mergeRings_concat_iff_squareHalves :
    IsStray [⟨1, 1⟩, ⟨2, 2⟩] ⟨1, 1⟩ ⟨2, 2⟩ squareHalves ∧
      mergeRings (squareHalves ++ [[⟨1, 1⟩, ⟨2, 2⟩]]) = mergeRings squareHalves := by
  have isStray : IsStray [⟨1, 1⟩, ⟨2, 2⟩] ⟨1, 1⟩ ⟨2, 2⟩ squareHalves :=
    ⟨by decide, by decide +kernel, Or.inl ⟨rfl, rfl⟩, by decide +kernel, by decide +kernel⟩
  exact ⟨isStray, (mergeRings_concat_iff isStray).mpr (by decide +kernel)⟩

/-- Attached where the ring closes, a stray piece costs the ring. -/
theorem mergeRings_concat_squareHalves :
    IsStray [⟨0, 0⟩, ⟨-1, -1⟩] ⟨0, 0⟩ ⟨-1, -1⟩ squareHalves ∧
      mergeRings squareHalves = [[⟨0, 0⟩, ⟨1, 0⟩, ⟨1, 1⟩, ⟨0, 1⟩, ⟨0, 0⟩]] ∧
      mergeRings (squareHalves ++ [[⟨0, 0⟩, ⟨-1, -1⟩]]) = [] :=
  ⟨⟨by decide, by decide +kernel, Or.inl ⟨rfl, rfl⟩, by decide +kernel, by decide +kernel⟩,
    by decide +kernel, by decide +kernel⟩

end Gazetteer.Osm
