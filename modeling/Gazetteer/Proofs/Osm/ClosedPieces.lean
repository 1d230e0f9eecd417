import Gazetteer.Proofs.Osm.Stray

/-!
# Pieces that are rings by themselves

A piece that is closed is taken out as a ring when its turn comes.  No path that grows before
takes it up unless the path comes to the vertex at which the piece is closed, and a path only
comes to vertices at which pieces end.  A piece that ends there and is listed first does take
it up: the path then ends where it ended before, and goes on as it would have done without.
-/

namespace Gazetteer.Osm

variable {κ : Type} [BEq κ]

/-! ## A piece that does not fit -/

section Misfits

variable {path longer misfit : List κ} {before after others : List (List κ)}

theorem joinFirst?_insert_of_none (misfits : join? path misfit = none)
    (stuck : joinFirst? path (before ++ after) = none) :
    joinFirst? path (before ++ misfit :: after) = none := by
  rw [joinFirst?_eq_none_iff] at stuck ⊢
  intro piece member
  rcases List.mem_cons.mp (List.perm_middle.mem_iff.mp member) with rfl | member
  · exact misfits
  · exact stuck piece member

theorem exists_joinFirst?_insert_of_some (misfits : join? path misfit = none)
    (joined : joinFirst? path (before ++ after) = some (longer, others)) :
    ∃ front back, others = front ++ back ∧
      joinFirst? path (before ++ misfit :: after) = some (longer, front ++ misfit :: back) := by
  induction before generalizing longer others with
  | nil => exact ⟨[], others, rfl, by simpa [joinFirst?, misfits] using joined⟩
  | cons piece before ih =>
      rw [List.cons_append, joinFirst?] at joined
      rw [List.cons_append, joinFirst?]
      cases fits : join? path piece with
      | some _ =>
          simp only [fits, Option.some.injEq, Prod.mk.injEq] at joined
          obtain ⟨rfl, rfl⟩ := joined
          exact ⟨before, after, rfl, rfl⟩
      | none =>
          simp only [fits, Option.map_eq_some_iff, Prod.mk.injEq, Prod.exists] at joined
          obtain ⟨longer, tail, found, rfl, rfl⟩ := joined
          obtain ⟨front, back, rfl, passed⟩ := ih found
          exact ⟨piece :: front, back, rfl, by simp [passed]⟩

end Misfits

/-! ## Paths with the same ends -/

/-- A path that ends where another one does, with some more vertices on the way. -/
structure Detour (surplus : Nat) (path longer : List κ) : Prop where
  nonempty : path ≠ []
  head : ∀ vertex, (longer.head? == vertex) = (path.head? == vertex)
  last : ∀ vertex, (longer.getLast? == vertex) = (path.getLast? == vertex)
  length : longer.length = path.length + surplus

namespace Detour

variable {surplus : Nat} {path longer piece : List κ} {pieces : List (List κ)}

theorem ne_nil (detour : Detour surplus path longer) : longer ≠ [] := by
  have pathLong := List.length_pos_of_ne_nil detour.nonempty
  exact List.ne_nil_of_length_pos (by rw [detour.length]; omega)

theorem append_tail (detour : Detour surplus path longer) (long : 2 ≤ piece.length) :
    Detour surplus (path ++ piece.tail) (longer ++ piece.tail) where
  nonempty := by simp [detour.nonempty]
  head vertex := by
    rw [List.head?_append_of_ne_nil _ detour.nonempty, List.head?_append_of_ne_nil _ detour.ne_nil,
      detour.head]
  last vertex := by rw [getLast?_append_tail path long, getLast?_append_tail longer long]
  length := by
    rw [List.length_append, List.length_append, detour.length]
    omega

theorem dropLast_append (detour : Detour surplus path longer) (long : 2 ≤ piece.length) :
    Detour surplus (piece.dropLast ++ path) (piece.dropLast ++ longer) where
  nonempty := by simp [detour.nonempty]
  head vertex := by
    match piece, long with
    | first :: second :: rest, _ => rfl
  last vertex := by
    rw [List.getLast?_append_of_ne_nil _ detour.nonempty,
      List.getLast?_append_of_ne_nil _ detour.ne_nil, detour.last]
  length := by
    rw [List.length_append, List.length_append, detour.length]
    omega

/-- A piece fits both paths or neither, and at the same ends. -/
theorem join? (detour : Detour surplus path longer) (long : 2 ≤ piece.length) :
    (Osm.join? path piece = none ∧ Osm.join? longer piece = none) ∨
      ∃ joined further, Osm.join? path piece = some joined ∧
        Osm.join? longer piece = some further ∧ Detour surplus joined further := by
  have turnedLong : 2 ≤ piece.reverse.length := by simpa using long
  simp only [Osm.join?, detour.head, detour.last]
  split_ifs
  · exact Or.inr ⟨_, _, rfl, rfl, detour.append_tail long⟩
  · exact Or.inr ⟨_, _, rfl, rfl, detour.append_tail turnedLong⟩
  · exact Or.inr ⟨_, _, rfl, rfl, detour.dropLast_append long⟩
  · exact Or.inr ⟨_, _, rfl, rfl, detour.dropLast_append turnedLong⟩
  · exact Or.inl ⟨rfl, rfl⟩

theorem joinFirst? (detour : Detour surplus path longer)
    (long : ∀ piece ∈ pieces, 2 ≤ piece.length) :
    (Osm.joinFirst? path pieces = none ∧ Osm.joinFirst? longer pieces = none) ∨
      ∃ joined further others, Osm.joinFirst? path pieces = some (joined, others) ∧
        Osm.joinFirst? longer pieces = some (further, others) ∧ Detour surplus joined further := by
  induction pieces with
  | nil => exact Or.inl ⟨rfl, rfl⟩
  | cons piece rest ih =>
      simp only [Osm.joinFirst?]
      rcases detour.join? (long piece List.mem_cons_self) with
        ⟨misfits, alsoMisfits⟩ | ⟨joined, further, fits, alsoFits, again⟩
      · rcases ih fun other member => long other (.tail _ member) with
          ⟨stuck, alsoStuck⟩ | ⟨joined, further, others, found, alsoFound, again⟩
        · exact Or.inl (by simp [misfits, alsoMisfits, stuck, alsoStuck])
        · refine Or.inr ⟨joined, further, piece :: others, ?_, ?_, again⟩
          · simp [misfits, found]
          · simp [alsoMisfits, alsoFound]
      · exact Or.inr ⟨joined, further, rest, by simp [fits], by simp [alsoFits], again⟩

/-- Both paths take the same pieces up. -/
theorem grow (detour : Detour surplus path longer) (long : ∀ piece ∈ pieces, 2 ≤ piece.length) :
    (Osm.grow longer pieces).2 = (Osm.grow path pieces).2 ∧
      Detour surplus (Osm.grow path pieces).1 (Osm.grow longer pieces).1 := by
  fun_induction Osm.grow path pieces generalizing longer with
  | case1 path pieces stuck =>
      obtain ⟨_, alsoStuck⟩ | ⟨_, _, _, found, _⟩ := detour.joinFirst? long
      · rw [grow_of_stuck alsoStuck]
        exact ⟨rfl, detour⟩
      · simp [stuck] at found
  | case2 path pieces joined others found ih =>
      obtain ⟨stuck, _⟩ | ⟨_, further, _, same, alsoFound, again⟩ := detour.joinFirst? long
      · simp [stuck] at found
      · obtain ⟨rfl, rfl⟩ := Prod.mk.inj (Option.some.inj (found.symm.trans same))
        have othersLong : ∀ piece ∈ others, 2 ≤ piece.length := by
          obtain ⟨piece, perm, _⟩ := exists_piece_of_joinFirst? found
          exact fun other member => long other (perm.mem_iff.mpr (.tail _ member))
        rw [grow_of_joined alsoFound]
        exact ih again othersLong

end Detour

section Rings

variable [PartialEquivBEq κ] {own : κ} {ring path longer : List κ}
  {before after others pieces : List (List κ)}

/-! ## Ends of closed pieces -/

instance partialEquivBEqOption : PartialEquivBEq (Option κ) where
  symm {first second} equal := by
    cases first <;> cases second <;> simp_all [BEq.symm]
  trans {first second third} equal again := by
    cases first <;> cases second <;> cases third <;> simp_all
    exact BEq.trans equal again

/-- A closed piece ends at one vertex. -/
theorem beq_of_mem_ends (closed : isClosed ring = true) {vertex other : κ}
    (isEnd : vertex ∈ ends [ring]) (isOther : other ∈ ends [ring]) : (vertex == other) = true := by
  have atHead : ∀ last ∈ ends [ring], (ring.head? == some last) = true := by
    have sameEnds : (ring.head? == ring.getLast?) = true := closed
    intro last member
    obtain ⟨piece, isPiece, isHead | isLast⟩ := mem_ends_iff.mp member
    · obtain rfl := List.mem_singleton.mp isPiece
      exact isHead ▸ BEq.trans sameEnds (BEq.symm sameEnds)
    · obtain rfl := List.mem_singleton.mp isPiece
      exact isLast ▸ sameEnds
  rw [← Option.some_beq_some]
  exact BEq.trans (BEq.symm (atHead vertex isEnd)) (atHead other isOther)

omit [BEq κ] [PartialEquivBEq κ] in
theorem mem_ends_of_mem_head? (isOwn : own ∈ ring.head?) : own ∈ ends [ring] :=
  mem_ends_iff.mpr ⟨ring, List.mem_singleton_self ring, Or.inl isOwn⟩

/-! ## A ring that no path meets -/

/-- No piece has an end at a vertex, unless it is a ring by itself. -/
def OnlyRingsAt (own : κ) (pieces : List (List κ)) : Prop :=
  ∀ piece ∈ pieces, isRing piece = false → ∀ vertex ∈ ends [piece], (vertex == own) = false

/-- A path that is nowhere near the vertex does not come there by a join, since a ring that
is closed there could not be joined to it. -/
theorem OnlyRingsAt.of_joinFirst? (only : OnlyRingsAt own pieces)
    (long : ∀ piece ∈ path :: pieces, 2 ≤ piece.length)
    (away : ∀ vertex ∈ ends [path], (vertex == own) = false)
    (joined : joinFirst? path pieces = some (longer, others)) :
    (∀ vertex ∈ ends [longer], (vertex == own) = false) ∧ OnlyRingsAt own others := by
  obtain ⟨piece, perm, fits⟩ := exists_piece_of_joinFirst? joined
  have isPiece : piece ∈ pieces := perm.mem_iff.mpr List.mem_cons_self
  have nonempty := ne_nil_of_long (long path List.mem_cons_self)
  have pieceAway : ∀ vertex ∈ ends [piece], (vertex == own) = false := by
    cases whole : isRing piece with
    | false => exact only piece isPiece whole
    | true =>
        have meets : ∃ near ∈ ends [path], ∃ shared ∈ ends [piece], (near == shared) = true := by
          by_contra apart
          push Not at apart
          have misfits := (join?_eq_none_iff nonempty).mpr fun near isNear shared isShared =>
            Bool.eq_false_iff.mpr (apart near isNear shared isShared)
          simp [misfits] at fits
        obtain ⟨near, isNear, shared, isShared, equal⟩ := meets
        intro vertex isEnd
        have closed := (isRing_iff.mp whole).1
        have sameVertex := BEq.trans equal (beq_of_mem_ends closed isShared isEnd)
        exact (BEq.congr_left sameVertex).symm.trans (away near isNear)
  refine ⟨?_, fun other member => only other (perm.mem_iff.mpr (.tail _ member))⟩
  have alone : joinFirst? path [piece] = some (longer, []) := by simp [joinFirst?, fits]
  have bothLong : ∀ other ∈ [path, piece], 2 ≤ other.length := by
    simpa using ⟨long path List.mem_cons_self, long piece (.tail _ isPiece)⟩
  intro vertex isEnd
  have isOld := (ends_subset_of_joinFirst? bothLong alone).2 isEnd
  exact (mem_ends_cons.mp isOld).elim (away vertex) (pieceAway vertex)

theorem join?_eq_none_of_away (closed : isClosed ring = true) (isOwn : own ∈ ring.head?)
    (nonempty : path ≠ []) (away : ∀ vertex ∈ ends [path], (vertex == own) = false) :
    join? path ring = none := by
  refine (join?_eq_none_iff nonempty).mpr fun vertex isEnd other isOther => ?_
  have sameVertex := beq_of_mem_ends closed (mem_ends_of_mem_head? isOwn) isOther
  exact (BEq.congr_right sameVertex).symm.trans (away vertex isEnd)

/-- A path grows as it does without the ring. -/
theorem exists_grow_insert (closed : isClosed ring = true) (isOwn : own ∈ ring.head?)
    (only : OnlyRingsAt own (before ++ after))
    (long : ∀ piece ∈ path :: (before ++ after), 2 ≤ piece.length)
    (away : ∀ vertex ∈ ends [path], (vertex == own) = false) :
    ∃ front back, (grow path (before ++ after)).2 = front ++ back ∧
      grow path (before ++ ring :: after) =
        ((grow path (before ++ after)).1, front ++ ring :: back) ∧
      OnlyRingsAt own (front ++ back) := by
  generalize isListing : before ++ after = pieces at *
  fun_induction grow path pieces generalizing before after with
  | case1 path pieces stuck =>
      subst isListing
      have nonempty := ne_nil_of_long (long path List.mem_cons_self)
      have misfits := join?_eq_none_of_away closed isOwn nonempty away
      exact ⟨before, after, rfl, grow_of_stuck (joinFirst?_insert_of_none misfits stuck), only⟩
  | case2 path pieces longer others joined ih =>
      subst isListing
      have nonempty := ne_nil_of_long (long path List.mem_cons_self)
      have misfits := join?_eq_none_of_away closed isOwn nonempty away
      obtain ⟨stillAway, stillOnly⟩ := only.of_joinFirst? long away joined
      have stillLong := (ends_subset_of_joinFirst? long joined).1
      obtain ⟨front, back, rfl, passed⟩ := exists_joinFirst?_insert_of_some misfits joined
      rw [grow_of_joined passed]
      exact ih stillAway rfl stillOnly stillLong

/-- A ring is returned, and the others are made as they would be without it. -/
theorem mergeRings_insert_perm {before after : List (List κ)} (whole : isRing ring = true)
    (isOwn : own ∈ ring.head?) (only : OnlyRingsAt own (before ++ after))
    (long : ∀ piece ∈ before ++ after, 2 ≤ piece.length) :
    (mergeRings (before ++ ring :: after)).Perm (ring :: mergeRings (before ++ after)) := by
  match before with
  | [] =>
      rw [List.nil_append, mergeRings, if_pos whole]
      exact .refl _
  | piece :: before =>
      have onlyRest : OnlyRingsAt own (before ++ after) :=
        fun other member => only other (.tail _ member)
      rw [List.cons_append, List.cons_append, mergeRings, mergeRings]
      by_cases alsoWhole : isRing piece = true
      · have restLong : ∀ other ∈ before ++ after, 2 ≤ other.length :=
          fun other member => long other (.tail _ member)
        rw [if_pos alsoWhole, if_pos alsoWhole]
        exact ((mergeRings_insert_perm whole isOwn onlyRest restLong).cons piece).trans (.swap ..)
      · have closed := (isRing_iff.mp whole).1
        have away := only piece List.mem_cons_self (Bool.eq_false_iff.mpr alsoWhole)
        obtain ⟨front, back, left, passed, stillOnly⟩ :=
          exists_grow_insert closed isOwn onlyRest long away
        have shorter := length_grow_le piece (before ++ after)
        have stillLong : ∀ other ∈ front ++ back, 2 ≤ other.length := fun other member =>
          (ends_subset_of_grow long).1 other (.tail _ (left ▸ member))
        have ih := mergeRings_insert_perm whole isOwn stillOnly stillLong
        simp only [if_neg alsoWhole, passed, left]
        split
        · exact (ih.cons _).trans (.swap ..)
        · exact ih
termination_by before.length + after.length
decreasing_by
  · simp
  · rw [left, List.length_append, List.length_append] at shorter
    simp only [List.length_cons]
    omega

/-! ## A ring that a path takes up -/

namespace Detour

variable {surplus : Nat}

theorem isClosed_eq (detour : Detour surplus path longer) : isClosed longer = isClosed path := by
  rw [isClosed, isClosed, detour.head, BEq.comm, detour.last, BEq.comm]

/-- A ring comes behind the end of the path at which it is closed. -/
theorem append_ring (nonempty : path ≠ []) (long : 2 ≤ ring.length)
    (sameEnd : (path.getLast? == ring.getLast?) = true) :
    Detour (ring.length - 1) path (path ++ ring.tail) where
  nonempty := nonempty
  head vertex := by rw [List.head?_append_of_ne_nil _ nonempty]
  last vertex := by rw [getLast?_append_tail path long, BEq.congr_left sameEnd]
  length := by rw [List.length_append, List.length_tail]

/-- A ring comes before the beginning of the path. -/
theorem ring_append (nonempty : path ≠ []) (long : 2 ≤ ring.length)
    (sameBeginning : (path.head? == ring.head?) = true) :
    Detour (ring.length - 1) path (ring.dropLast ++ path) where
  nonempty := nonempty
  head vertex := by
    match ring, long with
    | first :: second :: rest, _ => exact (BEq.congr_left sameBeginning).symm
  last vertex := by rw [List.getLast?_append_of_ne_nil _ nonempty]
  length := by
    rw [List.length_append, List.length_dropLast]
    omega

/-- A path that takes a ring up still ends where it did. -/
theorem of_join? (nonempty : path ≠ []) (closed : isClosed ring = true) (long : 2 ≤ ring.length)
    (joined : Osm.join? path ring = some longer) : Detour (ring.length - 1) path longer := by
  have sameEnds : (ring.head? == ring.getLast?) = true := closed
  have turnedLong : 2 ≤ ring.reverse.length := by simpa using long
  unfold Osm.join? at joined
  split_ifs at joined with endsAtHead endsAtLast beginsAtLast beginsAtHead
  · obtain rfl := Option.some.inj joined
    exact append_ring nonempty long (BEq.trans endsAtHead sameEnds)
  · obtain rfl := Option.some.inj joined
    have sameEnd := BEq.trans endsAtLast (BEq.symm sameEnds)
    simpa using append_ring nonempty turnedLong (by simpa using sameEnd)
  · obtain rfl := Option.some.inj joined
    exact ring_append nonempty long (BEq.trans beginsAtLast (BEq.symm sameEnds))
  · obtain rfl := Option.some.inj joined
    have sameBeginning := BEq.trans beginsAtHead sameEnds
    simpa using ring_append nonempty turnedLong (by simpa using sameBeginning)

end Detour

/-- If a piece that ends where a ring is closed is listed before it, the ring is not returned
beside what the other pieces make up. -/
theorem not_mergeRings_cons_perm {piece : List κ} (whole : isRing ring = true)
    (isOwn : own ∈ ring.head?) (notRing : isRing piece = false)
    (long : ∀ other ∈ piece :: others, 2 ≤ other.length) {vertex : κ}
    (isEnd : vertex ∈ ends [piece]) (meets : (vertex == own) = true) :
    ¬ (mergeRings (piece :: ring :: others)).Perm (ring :: mergeRings (piece :: others)) := by
  obtain ⟨closed, fourLong⟩ := isRing_iff.mp whole
  have nonempty := ne_nil_of_long (long piece List.mem_cons_self)
  obtain ⟨longer, joined⟩ : ∃ longer, join? piece ring = some longer := by
    rw [← Option.ne_none_iff_exists']
    intro misfits
    have apart := (join?_eq_none_iff nonempty).mp misfits vertex isEnd own
      (mem_ends_of_mem_head? isOwn)
    simp [meets] at apart
  have found : joinFirst? piece (ring :: others) = some (longer, others) := by
    simp [joinFirst?, joined]
  obtain ⟨sameLeft, detour⟩ := (Detour.of_join? nonempty closed (by omega) joined).grow
    fun other member => long other (.tail _ member)
  have grownLong := (ends_subset_of_grow long).1 _ List.mem_cons_self
  -- the two lists do not even have the same number of vertices
  intro perm
  have total := (perm.map List.length).sum_eq
  simp only [mergeRings, notRing, Bool.false_eq_true, if_false, grow_of_joined found, sameLeft]
    at total
  simp only [isRing, detour.isClosed_eq, detour.length] at total
  cases closes : isClosed (grow piece others).1 with
  | false =>
      simp only [closes, Bool.false_and, Bool.false_eq_true, if_false, List.map_cons,
        List.sum_cons] at total
      omega
  | true =>
      simp only [closes, Bool.true_and, decide_eq_true_eq] at total
      split_ifs at total <;>
        simp only [List.map_cons, List.sum_cons, detour.length] at total <;> omega

/-- Wherever a ring is listed among other pieces it is returned beside what the others make up,
exactly if none of them ends where it is closed without being a ring itself. -/
theorem mergeRings_insert_perm_iff (whole : isRing ring = true)
    (long : ∀ piece ∈ others, 2 ≤ piece.length) :
    (∀ before after, (before ++ after).Perm others →
      (mergeRings (before ++ ring :: after)).Perm (ring :: mergeRings (before ++ after))) ↔
    ∀ piece ∈ others, isRing piece = false →
      ∀ vertex ∈ ends [piece], ∀ own ∈ ring.head?, (vertex == own) = false := by
  constructor
  · intro kept piece member notRing vertex isEnd own isOwn
    by_contra meets
    obtain ⟨front, back, rfl⟩ := List.append_of_mem member
    have pieceFirst : (piece :: (front ++ back)).Perm (front ++ piece :: back) :=
      List.perm_middle.symm
    refine not_mergeRings_cons_perm whole isOwn notRing ?_ isEnd (by simpa using meets)
      (kept [piece] (front ++ back) pieceFirst)
    exact fun other isOther => long other (pieceFirst.mem_iff.mp isOther)
  · intro apart before after perm
    obtain ⟨own, isOwn⟩ : ∃ own, own ∈ ring.head? := by
      match ring, whole with
      | first :: _, _ => exact ⟨first, rfl⟩
    have only : OnlyRingsAt own (before ++ after) := fun piece member notRing vertex isEnd =>
      apart piece (perm.mem_iff.mp member) notRing vertex isEnd own isOwn
    exact mergeRings_insert_perm whole isOwn only fun piece member =>
      long piece (perm.mem_iff.mp member)

end Rings

/-- A square drawn in one piece. -/
def wholeSquare : List (Coord Float) :=
  [⟨0, 0⟩, ⟨1, 0⟩, ⟨1, 1⟩, ⟨0, 1⟩, ⟨0, 0⟩]

/-- A way past a corner at which the square is not closed, and a triangle that shares the
corner at which it is. -/
theorem mergeRings_insert_perm_iff_wholeSquare :
    let others : List (List (Coord Float)) :=
      [[⟨1, 1⟩, ⟨2, 2⟩], [⟨0, 0⟩, ⟨-1, 0⟩, ⟨-1, -1⟩, ⟨0, 0⟩]]
    isRing wholeSquare = true ∧ (∀ piece ∈ others, 2 ≤ piece.length) ∧
      (mergeRings (others ++ [wholeSquare])).Perm (wholeSquare :: mergeRings others) := by
  intro others
  have whole : isRing wholeSquare = true := by decide +kernel
  have long : ∀ piece ∈ others, 2 ≤ piece.length := by decide
  have kept := (mergeRings_insert_perm_iff whole long).mpr (by decide +kernel)
  have last := kept others [] (.of_eq (List.append_nil others))
  rw [List.append_nil] at last
  exact ⟨whole, long, last⟩

/-- A way that ends where the square is closed and is listed first costs the square. -/
theorem wholeSquare_notMem_mergeRings :
    let pieces : List (List (Coord Float)) := [[⟨-1, -1⟩, ⟨0, 0⟩], wholeSquare]
    wholeSquare ∈ pieces ∧ isClosed wholeSquare = true ∧ 4 ≤ wholeSquare.length ∧
      (∀ piece ∈ pieces, 2 ≤ piece.length) ∧ wholeSquare ∉ mergeRings pieces := by
  intro pieces
  have dropped : mergeRings pieces = [] := by decide +kernel
  refine ⟨.tail _ List.mem_cons_self, by decide +kernel, by decide, by decide, ?_⟩
  rw [dropped]
  exact List.not_mem_nil

end Gazetteer.Osm
