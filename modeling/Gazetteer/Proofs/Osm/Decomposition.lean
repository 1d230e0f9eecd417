import Gazetteer.Proofs.Osm.Outlines

/-!
# Pieces that fall apart into cycles

Pieces of which every end is met by exactly one other end fall apart into cycles in only one
way.  Joining two pieces keeps them so, and keeps the cycles and their outlines: two pieces
that meet follow each other in their cycle, since nothing else ends where they meet.
-/

namespace Gazetteer.Osm

variable {κ : Type} [BEq κ]

/-- Every vertex at which a piece ends is an end exactly twice. -/
structure Paired (pieces : List (List κ)) : Prop where
  long : ∀ piece ∈ pieces, 2 ≤ piece.length
  twice : ∀ vertex ∈ ends pieces, (ends pieces).count vertex = 2

/-- Cycles that take up every one of some pieces, each in one of its directions. -/
structure Decomposes (cycles : List (List (List κ))) (pieces : List (List κ)) : Prop where
  relisted : Relisted cycles.flatten pieces
  isCycle : ∀ cycle ∈ cycles, IsCycle cycle

theorem Decomposes.of_relisted {cycles : List (List (List κ))} {pieces listing : List (List κ)}
    (decomposes : Decomposes cycles pieces) (relisted : Relisted pieces listing) :
    Decomposes cycles listing where
  relisted := decomposes.relisted.trans relisted
  isCycle := decomposes.isCycle

theorem Decomposes.eq_nil {cycles : List (List (List κ))} (decomposes : Decomposes cycles []) :
    cycles = [] := by
  have empty : cycles.flatten = [] := by
    simpa [Relisted] using decomposes.relisted
  cases cycles with
  | nil => rfl
  | cons cycle rest =>
      have nonempty := (decomposes.isCycle cycle List.mem_cons_self).nonempty
      exact absurd (List.append_eq_nil_iff.mp empty).1 nonempty

namespace Paired

variable {pieces listing : List (List κ)}

theorem ne_nil (paired : Paired pieces) {piece : List κ} (member : piece ∈ pieces) :
    piece ≠ [] := by
  rintro rfl
  have long := paired.long [] member
  contradiction

theorem of_relisted (paired : Paired pieces) (relisted : Relisted pieces listing) :
    Paired listing where
  long := relisted.le_length paired.long
  twice := by
    intro vertex member
    rw [← relisted.count_ends]
    exact paired.twice vertex (relisted.symm.mem_ends member)

end Paired

/-! ## Joining keeps ends paired -/

section Joining

variable [PartialEquivBEq κ] {start next : List κ} {others : List (List κ)}

/-- Nothing else ends where two of the pieces meet. -/
theorem Paired.beq_eq_false (paired : Paired (start :: next :: others)) {last head vertex : κ}
    (isLast : last ∈ start.getLast?) (isHead : head ∈ next.head?) (equal : (last == head) = true)
    (member : vertex ∈ ends ((start ++ next.tail) :: others)) : (last == vertex) = false := by
  have perm := ends_perm_of_meet others isLast isHead (paired.long next (by simp))
  have twice := paired.twice last (perm.mem_iff.mpr List.mem_cons_self)
  have both : (last == last) = true ∧ (head == last) = true :=
    ⟨BEq.trans equal (BEq.symm equal), BEq.symm equal⟩
  rw [perm.count_eq, List.count_cons, List.count_cons, if_pos both.1, if_pos both.2] at twice
  have none : (ends ((start ++ next.tail) :: others)).countP (· == last) = 0 := by
    rw [← List.count]
    omega
  exact BEq.symm_false (Bool.eq_false_iff.mpr (List.countP_eq_zero.mp none vertex member))

theorem Paired.join (paired : Paired (start :: next :: others)) (joins : Joins start next) :
    Paired ((start ++ next.tail) :: others) := by
  obtain ⟨last, isLast, head, isHead, equal⟩ := joins
  have perm := ends_perm_of_meet others isLast isHead (paired.long next (by simp))
  constructor
  · intro piece member
    rcases List.mem_cons.mp member with rfl | member
    · have long := paired.long start List.mem_cons_self
      rw [List.length_append]
      omega
    · exact paired.long piece (by simp [member])
  · intro vertex member
    have apart := paired.beq_eq_false isLast isHead equal member
    have twice := paired.twice vertex
      (perm.mem_iff.mpr (List.mem_cons_of_mem _ (List.mem_cons_of_mem _ member)))
    have alsoApart : (head == vertex) = false := (BEq.congr_left equal).symm.trans apart
    simpa [perm.count_eq, List.count_cons, apart, alsoApart] using twice

/-- A piece that meets another one is not closed. -/
theorem Paired.not_joins_self (paired : Paired (start :: next :: others))
    (joins : Joins start next) : ¬ Joins start start := by
  obtain ⟨last, isLast, head, isHead, equal⟩ := joins
  rintro ⟨_, alsoLast, first, isFirst, closes⟩
  obtain rfl := Option.mem_unique isLast alsoLast
  have isEnd : first ∈ ends ((start ++ next.tail) :: others) := by
    obtain ⟨tail, rfl⟩ := List.head?_eq_some_iff.mp isFirst
    simp [ends_cons]
  exact Bool.eq_false_iff.mp (paired.beq_eq_false isLast isHead equal isEnd) closes

/-- Only one piece begins where a piece ends. -/
theorem Paired.eq_of_joins (paired : Paired (start :: next :: others)) (joins : Joins start next)
    {other : List κ} (joinsOther : Joins start other)
    (member : undirected other ∈ (next :: others).map undirected) : other = next := by
  obtain ⟨last, isLast, head, isHead, equal⟩ := joins
  obtain ⟨_, alsoLast, vertex, isVertex, meets⟩ := joinsOther
  obtain rfl := Option.mem_unique isLast alsoLast
  by_contra differs
  have elsewhere : vertex ∈ ends ((start ++ next.tail) :: others) := by
    obtain ⟨piece, among, same⟩ := List.mem_map.mp member
    rcases List.mem_cons.mp among with rfl | among
    · -- the one that begins here is `next` in its other direction
      obtain rfl := (undirected_eq_iff.mp same).resolve_left fun equal => differs equal.symm
      refine mem_ends_iff.mpr ⟨_, List.mem_cons_self, Or.inr ?_⟩
      rw [getLast?_append_tail start (paired.long _ (by simp)), List.getLast?_reverse]
      exact isVertex
    · have isEnd : vertex ∈ ends [other] := by simp [ends, Option.mem_def.mp isVertex]
      have relisted : Relisted [other] [piece] := .cons same.symm (.refl [])
      obtain ⟨_, isPiece, isEnd⟩ := mem_ends_iff.mp (relisted.mem_ends isEnd)
      obtain rfl := List.mem_singleton.mp isPiece
      exact mem_ends_iff.mpr ⟨_, List.mem_cons_of_mem _ among, isEnd⟩
  exact Bool.eq_false_iff.mp (paired.beq_eq_false isLast isHead equal elsewhere) meets

end Joining

/-! ## Closed pieces -/

section Closed

variable [PartialEquivBEq κ] {path : List κ} {others : List (List κ)}

/-- What is left of a closed piece is still paired. -/
theorem Paired.of_closed (paired : Paired (path :: others)) (closed : Joins path path) :
    Paired others := by
  obtain ⟨last, isLast, first, isFirst, equal⟩ := closed
  have whole : ends (path :: others) = first :: last :: ends others := by
    rw [ends_cons, Option.mem_def.mp isLast, Option.mem_def.mp isFirst]
    rfl
  refine ⟨fun piece member => paired.long piece (.tail _ member), fun vertex member => ?_⟩
  have twice := paired.twice vertex (by simp [whole, member])
  have apart : (first == vertex) = false := by
    rw [Bool.eq_false_iff]
    intro also
    have full := paired.twice first (by simp [whole])
    have more : 0 < (ends others).countP (· == first) :=
      List.countP_pos_iff.mpr ⟨vertex, member, BEq.symm also⟩
    have itself : (first == first) = true := BEq.trans (BEq.symm equal) equal
    rw [whole, List.count_cons, List.count_cons, if_pos itself, if_pos equal, List.count] at full
    omega
  have alsoApart : (last == vertex) = false := (BEq.congr_left equal).trans apart
  simpa [whole, List.count_cons, apart, alsoApart] using twice

/-- A piece that meets no other one meets itself. -/
theorem Paired.joins_self (paired : Paired (path :: others))
    (apart : ∀ vertex ∈ ends [path], ∀ other ∈ ends others, (vertex == other) = false) :
    Joins path path := by
  obtain ⟨first, last, isFirst, isLast⟩ := exists_ends_of_ne_nil (paired.ne_nil List.mem_cons_self)
  have whole : ends (path :: others) = first :: last :: ends others := by
    rw [ends_cons, isFirst, isLast]
    rfl
  have twice := paired.twice first (by simp [whole])
  have elsewhere : (ends others).count first = 0 := by
    rw [List.count, List.countP_eq_zero]
    intro vertex member
    have apart := apart first (by simp [ends, isFirst]) vertex member
    exact Bool.eq_false_iff.mp (BEq.symm_false apart)
  refine ⟨last, isLast, first, isFirst, ?_⟩
  by_contra unequal
  rw [whole, List.count_cons, List.count_cons, if_neg unequal, elsewhere] at twice
  split_ifs at twice
  all_goals omega

end Closed

/-! ## Joining keeps cycles -/

section Cycles

variable {start next : List κ} {rest : List (List κ)}

theorem isCycle_join_iff (joins : Joins start next) (long : 2 ≤ next.length) :
    IsCycle ((start ++ next.tail) :: rest) ↔ IsCycle (start :: next :: rest) := by
  have nonempty : start ≠ [] := by
    obtain ⟨last, isLast, _⟩ := joins
    rintro rfl
    contradiction
  have before (piece : List κ) : Joins (start ++ next.tail) piece ↔ Joins next piece := by
    rw [Joins, Joins, getLast?_append_tail start long]
  have behind (piece : List κ) : Joins piece (start ++ next.tail) ↔ Joins piece start := by
    rw [Joins, Joins, List.head?_append_of_ne_nil _ nonempty]
  have chains : ((start ++ next.tail) :: (rest ++ [start ++ next.tail])).IsChain Joins ↔
      (start :: (next :: rest ++ [start])).IsChain Joins := by
    calc
      _ ↔ (next :: (rest ++ [start ++ next.tail])).IsChain Joins := by
        simp only [List.isChain_cons, before]
      _ ↔ (next :: (rest ++ [start])).IsChain Joins := by
        simp only [← List.cons_append, List.isChain_append, List.head?_cons, Option.mem_some_iff,
          forall_eq', behind, List.isChain_singleton]
      _ ↔ _ := by
        rw [List.cons_append, List.isChain_cons_cons, and_iff_right joins]
  constructor <;> intro isCycle
  · exact ⟨List.cons_ne_nil _ _, (Cycle.chain_coe_cons ..).mpr
      (chains.mp ((Cycle.chain_coe_cons ..).mp isCycle.joins))⟩
  · exact ⟨List.cons_ne_nil _ _, (Cycle.chain_coe_cons ..).mpr
      (chains.mpr ((Cycle.chain_coe_cons ..).mp isCycle.joins))⟩

omit [BEq κ] in
theorem along_join : along ((start ++ next.tail) :: rest) = along (start :: next :: rest) := by
  simp [along]

end Cycles

/-! ## Cycles before and after a join -/

section Decompositions

variable [PartialEquivBEq κ] {piece start next : List κ} {pieces others : List (List κ)}
  {cycles : List (List (List κ))}

/-- The outlines of the rings that cycles run along. -/
def outlines (cycles : List (List (List κ))) : List (Sym2 (Cycle (Quotient (sameVertex κ)))) :=
  cycles.map fun cycle => outline (along cycle)

/-- The cycle of any piece can be turned so that it begins with the piece. -/
theorem Decomposes.exists_first (decomposes : Decomposes cycles (piece :: pieces)) :
    ∃ rest remaining, Decomposes ((piece :: rest) :: remaining) (piece :: pieces) ∧
      (outlines ((piece :: rest) :: remaining)).Perm (outlines cycles) := by
  obtain ⟨other, member, same⟩ := decomposes.relisted.symm.exists_mem List.mem_cons_self
  obtain ⟨cycle, isOne, among⟩ := List.mem_flatten.mp member
  obtain ⟨front, back, rfl⟩ := List.append_of_mem isOne
  have isCycle := decomposes.isCycle cycle isOne
  obtain ⟨turned, isTurned, sameOutline, relisted, among⟩ : ∃ turned, IsCycle turned ∧
      outline (along turned) = outline (along cycle) ∧ Relisted turned cycle ∧ piece ∈ turned := by
    rcases undirected_eq_iff.mp same with rfl | rfl
    · exact ⟨cycle, isCycle, rfl, .refl _, among⟩
    · exact ⟨_, isCycle.reverse, isCycle.outline_reversed, .of_reverse cycle, by simpa using among⟩
  obtain ⟨before, after, rfl, rotated⟩ := isTurned.exists_rotated among
  refine ⟨after ++ before, front ++ back, ⟨?_, ?_⟩, ?_⟩
  · have moved : Relisted (piece :: (after ++ before)) (before ++ piece :: after) := by
      rw [← List.cons_append]
      exact .of_perm List.perm_append_comm
    have taken : Relisted (cycle :: (front ++ back)).flatten (piece :: pieces) :=
      (Relisted.of_perm List.perm_middle.symm.flatten).trans decomposes.relisted
    exact ((moved.trans relisted).append (.refl _)).trans taken
  · intro other isOther
    rcases List.mem_cons.mp isOther with rfl | isOther
    · exact rotated
    · exact decomposes.isCycle other (List.perm_middle.mem_iff.mpr (.tail _ isOther))
  · have sameFirst : outline (along (piece :: (after ++ before))) = outline (along cycle) :=
      isTurned.outline_rotated.trans sameOutline
    simp only [outlines, List.map_cons, sameFirst]
    exact List.perm_middle.symm.map fun cycle => outline (along cycle)

/-- Cycles of joined pieces are cycles of the pieces. -/
theorem Decomposes.exists_split (joins : Joins start next) (long : 2 ≤ next.length)
    (decomposes : Decomposes cycles ((start ++ next.tail) :: others)) :
    ∃ whole, Decomposes whole (start :: next :: others) := by
  obtain ⟨rest, remaining, first, _⟩ := decomposes.exists_first
  refine ⟨(start :: next :: rest) :: remaining, ?_, ?_⟩
  · have left : Relisted (rest ++ remaining.flatten) others := first.relisted.of_cons rfl
    exact (left.cons rfl).cons rfl
  · intro cycle member
    rcases List.mem_cons.mp member with rfl | member
    · exact (isCycle_join_iff joins long).mp (first.isCycle _ List.mem_cons_self)
    · exact first.isCycle cycle (.tail _ member)

/-- Cycles of pieces are cycles of what joining makes of them. -/
theorem Decomposes.exists_join (paired : Paired (start :: next :: others))
    (joins : Joins start next) (decomposes : Decomposes cycles (start :: next :: others)) :
    ∃ joined, Decomposes joined ((start ++ next.tail) :: others) ∧
      (outlines joined).Perm (outlines cycles) := by
  obtain ⟨rest, remaining, first, sameOutlines⟩ := decomposes.exists_first
  have left : Relisted (rest ++ remaining.flatten) (next :: others) := first.relisted.of_cons rfl
  have isCycle := first.isCycle _ List.mem_cons_self
  obtain ⟨tail, rfl⟩ : ∃ tail, rest = next :: tail := by
    have chain := (Cycle.chain_coe_cons ..).mp isCycle.joins
    cases rest with
    | nil =>
        exact absurd (List.isChain_cons_cons.mp chain).1 (paired.not_joins_self joins)
    | cons other tail =>
        have joinsOther := (List.isChain_cons_cons.mp chain).1
        have member : undirected other ∈ (next :: others).map undirected :=
          left.mem_iff.mp (List.mem_map_of_mem List.mem_cons_self)
        exact ⟨tail, by rw [paired.eq_of_joins joins joinsOther member]⟩
  refine ⟨((start ++ next.tail) :: tail) :: remaining, ⟨?_, ?_⟩, ?_⟩
  · exact (left.of_cons rfl).cons rfl
  · intro cycle member
    rcases List.mem_cons.mp member with rfl | member
    · exact (isCycle_join_iff joins (paired.long next (by simp))).mpr isCycle
    · exact first.isCycle cycle (.tail _ member)
  · simpa only [outlines, List.map_cons, along_join] using sameOutlines

/-- A closed piece is a cycle by itself. -/
theorem Decomposes.exists_without (paired : Paired (start :: others)) (closed : Joins start start)
    (decomposes : Decomposes cycles (start :: others)) :
    ∃ remaining, Decomposes remaining others ∧
      (outline start :: outlines remaining).Perm (outlines cycles) := by
  obtain ⟨rest, remaining, first, sameOutlines⟩ := decomposes.exists_first
  cases rest with
  | nil =>
      refine ⟨remaining, ⟨first.relisted.of_cons rfl, ?_⟩, ?_⟩
      · exact fun cycle member => first.isCycle cycle (.tail _ member)
      · simpa [outlines, along] using sameOutlines
  | cons other tail =>
      have chain := (Cycle.chain_coe_cons ..).mp (first.isCycle _ List.mem_cons_self).joins
      have joins := (List.isChain_cons_cons.mp chain).1
      exact absurd closed ((paired.of_relisted first.relisted.symm).not_joins_self joins)

omit [PartialEquivBEq κ] in
/-- A closed piece makes one more cycle. -/
theorem Decomposes.cons_closed (closed : Joins start start)
    (decomposes : Decomposes cycles others) : Decomposes ([start] :: cycles) (start :: others) where
  relisted := decomposes.relisted.cons rfl
  isCycle := by
    intro cycle member
    rcases List.mem_cons.mp member with rfl | member
    · exact ⟨List.cons_ne_nil _ _, (Cycle.chain_coe_cons ..).mpr (by simpa using closed)⟩
    · exact decomposes.isCycle cycle member

end Decompositions

end Gazetteer.Osm
