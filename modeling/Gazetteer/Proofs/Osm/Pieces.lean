import Gazetteer.Osm.Rings
import Mathlib.Algebra.BigOperators.Group.List.Basic
import Mathlib.Algebra.GroupWithZero.Nat
import Mathlib.Data.List.Chain
import Mathlib.Data.Sym.Sym2

/-!
# Pieces and their ends

What joining makes of two pieces depends on their ends only, and up to its direction the
result is always the same: one of the pieces, in one of its directions, behind the other.
-/

namespace Gazetteer.Osm

variable {κ : Type}

/-! ## Pieces in either direction -/

/-- A piece, where it does not matter in which direction it is drawn. -/
def undirected (piece : List κ) : Sym2 (List κ) :=
  s(piece, piece.reverse)

theorem undirected_eq_iff {first second : List κ} :
    undirected first = undirected second ↔ first = second ∨ first = second.reverse := by
  simp only [undirected, Sym2.eq_iff, List.reverse_inj]
  constructor
  · rintro (⟨same, _⟩ | ⟨turned, _⟩)
    · exact Or.inl same
    · exact Or.inr turned
  · rintro (rfl | rfl)
    · exact Or.inl ⟨rfl, rfl⟩
    · exact Or.inr ⟨rfl, List.reverse_reverse second⟩

@[simp]
theorem undirected_reverse (piece : List κ) : undirected piece.reverse = undirected piece :=
  undirected_eq_iff.mpr (Or.inr rfl)

/-- The same pieces in any order, each in one of its directions. -/
def Relisted (first second : List (List κ)) : Prop :=
  (first.map undirected).Perm (second.map undirected)

namespace Relisted

variable {first second third : List (List κ)}

theorem refl (pieces : List (List κ)) : Relisted pieces pieces :=
  List.Perm.refl _

theorem symm (relisted : Relisted first second) : Relisted second first :=
  List.Perm.symm relisted

theorem trans (relisted : Relisted first second) (again : Relisted second third) :
    Relisted first third :=
  List.Perm.trans relisted again

theorem of_perm (perm : first.Perm second) : Relisted first second :=
  perm.map undirected

theorem cons {piece other : List κ} (same : undirected piece = undirected other)
    (relisted : Relisted first second) : Relisted (piece :: first) (other :: second) := by
  simpa [Relisted, same] using relisted

/-- A piece that is taken out of both listings. -/
theorem of_cons {piece other : List κ} (same : undirected piece = undirected other)
    (relisted : Relisted (piece :: first) (other :: second)) : Relisted first second := by
  simpa [Relisted, same] using relisted

theorem append {more others : List (List κ)} (relisted : Relisted first second)
    (also : Relisted more others) : Relisted (first ++ more) (second ++ others) := by
  simpa [Relisted] using List.Perm.append relisted also

/-- Pieces run through backwards. -/
theorem of_reverse (pieces : List (List κ)) :
    Relisted (pieces.map List.reverse).reverse pieces := by
  have same : (pieces.map List.reverse).map undirected = pieces.map undirected := by
    simp [Function.comp_def]
  rw [Relisted, ← same]
  exact (List.reverse_perm _).map undirected

theorem exists_mem (relisted : Relisted first second) {piece : List κ} (member : piece ∈ first) :
    ∃ other ∈ second, undirected other = undirected piece :=
  List.mem_map.mp (relisted.mem_iff.mp (List.mem_map_of_mem member))

theorem le_length (relisted : Relisted first second) {least : Nat}
    (long : ∀ piece ∈ first, least ≤ piece.length) : ∀ piece ∈ second, least ≤ piece.length := by
  intro piece member
  obtain ⟨other, isOther, same⟩ := relisted.symm.exists_mem member
  rcases undirected_eq_iff.mp same with rfl | rfl
  · exact long other isOther
  · simpa using long piece.reverse isOther

/-- What does not depend on the direction of pieces adds up to the same. -/
theorem sum_map_eq (relisted : Relisted first second) {measure : List κ → Nat}
    (turned : ∀ piece, measure piece.reverse = measure piece) :
    (first.map measure).sum = (second.map measure).sum := by
  let both : Sym2 (List κ) → Nat :=
    Sym2.lift ⟨fun one other => measure one + measure other, fun _ _ => Nat.add_comm ..⟩
  have doubled : ∀ pieces : List (List κ),
      ((pieces.map undirected).map both).sum = 2 * (pieces.map measure).sum := by
    intro pieces
    induction pieces with
    | nil => rfl
    | cons piece rest ih =>
        have here : both (undirected piece) = 2 * measure piece := by
          simp only [both, undirected, Sym2.lift_mk, turned]
          omega
        simp only [List.map_cons, List.sum_cons, here, ih]
        omega
  have same := (relisted.map both).sum_eq
  rw [doubled, doubled] at same
  omega

end Relisted

/-! ## Ends -/

/-- The two ends of each of some pieces. -/
def ends (pieces : List (List κ)) : List κ :=
  pieces.flatMap fun piece => piece.head?.toList ++ piece.getLast?.toList

theorem mem_ends_iff {pieces : List (List κ)} {vertex : κ} :
    vertex ∈ ends pieces ↔
      ∃ piece ∈ pieces, piece.head? = some vertex ∨ piece.getLast? = some vertex := by
  simp [ends]

theorem ends_cons (piece : List κ) (rest : List (List κ)) :
    ends (piece :: rest) = piece.head?.toList ++ piece.getLast?.toList ++ ends rest :=
  rfl

theorem mem_ends_cons {piece : List κ} {rest : List (List κ)} {vertex : κ} :
    vertex ∈ ends (piece :: rest) ↔ vertex ∈ ends [piece] ∨ vertex ∈ ends rest := by
  simp [ends, or_assoc]

theorem exists_ends_of_ne_nil {piece : List κ} (nonempty : piece ≠ []) :
    ∃ first last, piece.head? = some first ∧ piece.getLast? = some last :=
  ⟨piece.head nonempty, piece.getLast nonempty, List.head?_eq_some_head nonempty,
    List.getLast?_eq_some_getLast nonempty⟩

theorem ne_nil_of_long {piece : List κ} (long : 2 ≤ piece.length) : piece ≠ [] :=
  List.ne_nil_of_length_pos (Nat.zero_lt_of_lt long)

theorem Relisted.count_ends [BEq κ] {first second : List (List κ)}
    (relisted : Relisted first second) (vertex : κ) :
    (ends first).count vertex = (ends second).count vertex := by
  rw [ends, ends, List.count_flatMap, List.count_flatMap]
  apply relisted.sum_map_eq
  intro piece
  simp [Nat.add_comm]

theorem Relisted.mem_ends {first second : List (List κ)} (relisted : Relisted first second)
    {vertex : κ} (member : vertex ∈ ends first) : vertex ∈ ends second := by
  obtain ⟨piece, among, isEnd⟩ := mem_ends_iff.mp member
  obtain ⟨other, isOther, same⟩ := relisted.exists_mem among
  refine mem_ends_iff.mpr ⟨other, isOther, ?_⟩
  rcases undirected_eq_iff.mp same with rfl | rfl
  · exact isEnd
  · simpa [or_comm] using isEnd

section Meeting

variable {start next : List κ}

theorem getLast?_append_tail (start : List κ) (long : 2 ≤ next.length) :
    (start ++ next.tail).getLast? = next.getLast? := by
  match next, long with
  | first :: second :: rest, _ =>
      rw [List.tail_cons, List.getLast?_append_of_ne_nil _ (List.cons_ne_nil second rest),
        List.getLast?_cons_cons]

/-- Joining takes away the two ends that meet, and no others. -/
theorem ends_perm_of_meet (others : List (List κ)) {last head : κ} (isLast : last ∈ start.getLast?)
    (isHead : head ∈ next.head?) (long : 2 ≤ next.length) :
    (ends (start :: next :: others)).Perm
      (last :: head :: ends ((start ++ next.tail) :: others)) := by
  have nonempty : start ≠ [] := by
    rintro rfl
    contradiction
  simp only [ends_cons, Option.mem_def.mp isLast, Option.mem_def.mp isHead,
    List.head?_append_of_ne_nil _ nonempty, getLast?_append_tail start long, Option.toList_some]
  generalize start.head?.toList = first, next.getLast?.toList = final
  have moved : (first ++ [last] ++ ([head] ++ final ++ ends others)) =
      first ++ ([last, head] ++ (final ++ ends others)) := by simp
  rw [moved, List.append_assoc]
  exact List.perm_append_comm_assoc ..

end Meeting

/-! ## Joining -/

section Joining

variable [BEq κ]

/-- A piece ends where another one begins. -/
def Joins (first second : List κ) : Prop :=
  ∃ last ∈ first.getLast?, ∃ head ∈ second.head?, (last == head) = true

theorem isRing_iff {path : List κ} :
    isRing path = true ↔ isClosed path = true ∧ 4 ≤ path.length := by
  rw [isRing, Bool.and_eq_true_iff, decide_eq_true_iff]

theorem joins_of_beq {first second : List κ} (nonempty : first ≠ [])
    (equal : (first.getLast? == second.head?) = true) : Joins first second := by
  rw [List.getLast?_eq_some_getLast nonempty] at equal
  cases found : second.head? with
  | none =>
      rw [found] at equal
      contradiction
  | some head =>
      rw [found] at equal
      exact ⟨_, List.getLast?_eq_some_getLast nonempty, head, found, equal⟩

theorem Joins.reverse [PartialEquivBEq κ] {first second : List κ} (joins : Joins first second) :
    Joins second.reverse first.reverse := by
  obtain ⟨last, isLast, head, isHead, equal⟩ := joins
  exact ⟨head, by simpa using isHead, last, by simpa using isLast, BEq.symm equal⟩

/-- Whatever its direction, a joined path is one of the two behind the other. -/
theorem exists_joins_of_join? {path piece longer : List κ} (nonempty : path ≠ [])
    (joined : join? path piece = some longer) :
    ∃ start next, undirected start = undirected path ∧ undirected next = undirected piece ∧
      Joins start next ∧ undirected longer = undirected (start ++ next.tail) := by
  unfold join? at joined
  split_ifs at joined with endsAtHead endsAtLast beginsAtLast beginsAtHead
  · obtain rfl := Option.some.inj joined
    exact ⟨path, piece, rfl, rfl, joins_of_beq nonempty endsAtHead, rfl⟩
  · obtain rfl := Option.some.inj joined
    exact ⟨path, piece.reverse, rfl, undirected_reverse piece,
      joins_of_beq nonempty (by simpa using endsAtLast), rfl⟩
  · obtain rfl := Option.some.inj joined
    refine ⟨path.reverse, piece.reverse, undirected_reverse path, undirected_reverse piece,
      joins_of_beq (by simpa using nonempty) (by simpa using beginsAtLast), ?_⟩
    rw [← undirected_reverse]
    simp [List.tail_reverse]
  · obtain rfl := Option.some.inj joined
    refine ⟨path.reverse, piece, undirected_reverse path, rfl,
      joins_of_beq (by simpa using nonempty) (by simpa using beginsAtHead), ?_⟩
    rw [← undirected_reverse]
    simp [List.dropLast_reverse]

/-- A piece cannot be joined to a path exactly if they have no end in common. -/
theorem join?_eq_none_iff {path piece : List κ} (nonempty : path ≠ []) :
    join? path piece = none ↔
      ∀ vertex ∈ ends [path], ∀ other ∈ ends [piece], (vertex == other) = false := by
  obtain ⟨first, last, isFirst, isLast⟩ := exists_ends_of_ne_nil nonempty
  by_cases empty : piece = []
  · simp [join?, ends, isFirst, isLast, empty]
  · obtain ⟨head, final, isHead, isFinal⟩ := exists_ends_of_ne_nil empty
    have apart : (∀ vertex ∈ ends [path], ∀ other ∈ ends [piece], (vertex == other) = false) ↔
        ((first == head) = false ∧ (first == final) = false) ∧
          (last == head) = false ∧ (last == final) = false := by
      simp [ends, isFirst, isLast, isHead, isFinal]
    rw [apart]
    simp only [join?, isFirst, isLast, isHead, isFinal, Option.some_beq_some]
    split_ifs <;> simp_all

theorem exists_piece_of_joinFirst? {path longer : List κ} {pieces others : List (List κ)}
    (joined : joinFirst? path pieces = some (longer, others)) :
    ∃ piece, pieces.Perm (piece :: others) ∧ join? path piece = some longer := by
  induction pieces generalizing longer others with
  | nil => simp [joinFirst?] at joined
  | cons piece rest ih =>
      rw [joinFirst?] at joined
      split at joined
      · rename_i found
        obtain ⟨rfl, rfl⟩ := Prod.mk.inj (Option.some.inj joined)
        exact ⟨piece, .refl _, found⟩
      · simp only [Option.map_eq_some_iff, Prod.mk.injEq, Prod.exists] at joined
        obtain ⟨path, tail, found, rfl, rfl⟩ := joined
        obtain ⟨next, perm, fits⟩ := ih found
        exact ⟨next, (perm.cons piece).trans (.swap ..), fits⟩

theorem joinFirst?_eq_none_iff {path : List κ} {pieces : List (List κ)} :
    joinFirst? path pieces = none ↔ ∀ piece ∈ pieces, join? path piece = none := by
  induction pieces with
  | nil => simp [joinFirst?]
  | cons piece rest ih =>
      rw [joinFirst?]
      cases fits : join? path piece with
      | none => simp [fits, ih]
      | some longer => simp [fits]

/-- Whichever piece is joined first, and at whichever ends, two pieces that meet make way for
one of them behind the other. -/
theorem exists_relisted_of_joinFirst? {path longer : List κ} {pieces others : List (List κ)}
    (nonempty : path ≠ []) (joined : joinFirst? path pieces = some (longer, others)) :
    ∃ start next, Relisted (path :: pieces) (start :: next :: others) ∧ Joins start next ∧
      Relisted ((start ++ next.tail) :: others) (longer :: others) := by
  obtain ⟨piece, perm, fits⟩ := exists_piece_of_joinFirst? joined
  obtain ⟨start, next, samePath, samePiece, joins, sameLonger⟩ :=
    exists_joins_of_join? nonempty fits
  refine ⟨start, next, ?_, joins, .cons sameLonger.symm (.refl others)⟩
  exact (Relisted.of_perm (perm.cons path)).trans
    (.cons samePath.symm (.cons samePiece.symm (.refl others)))

/-- Joining makes no piece shorter and no new ends. -/
theorem ends_subset_of_joinFirst? {path longer : List κ} {pieces others : List (List κ)}
    (long : ∀ piece ∈ path :: pieces, 2 ≤ piece.length)
    (joined : joinFirst? path pieces = some (longer, others)) :
    (∀ piece ∈ longer :: others, 2 ≤ piece.length) ∧
      ends (longer :: others) ⊆ ends (path :: pieces) := by
  have nonempty : path ≠ [] := by
    rintro rfl
    have long := long [] List.mem_cons_self
    contradiction
  obtain ⟨start, next, relisted, ⟨last, isLast, head, isHead, _⟩, again⟩ :=
    exists_relisted_of_joinFirst? nonempty joined
  have long := relisted.le_length long
  constructor
  · refine again.le_length fun piece member => ?_
    rcases List.mem_cons.mp member with rfl | member
    · have startLong := long start List.mem_cons_self
      rw [List.length_append]
      omega
    · exact long piece (.tail _ (.tail _ member))
  · intro vertex member
    have perm := ends_perm_of_meet others isLast isHead (long next (by simp))
    exact relisted.symm.mem_ends <| perm.mem_iff.mpr <|
      .tail _ (.tail _ (again.symm.mem_ends member))

theorem ends_subset_of_grow {path : List κ} {pieces : List (List κ)}
    (long : ∀ piece ∈ path :: pieces, 2 ≤ piece.length) :
    (∀ piece ∈ (grow path pieces).1 :: (grow path pieces).2, 2 ≤ piece.length) ∧
      ends ((grow path pieces).1 :: (grow path pieces).2) ⊆ ends (path :: pieces) := by
  fun_induction grow path pieces with
  | case1 path pieces => exact ⟨long, List.Subset.refl _⟩
  | case2 path pieces longer others joined ih =>
      obtain ⟨stillLong, subset⟩ := ends_subset_of_joinFirst? long joined
      exact ⟨(ih stillLong).1, List.Subset.trans (ih stillLong).2 subset⟩

end Joining

end Gazetteer.Osm
