import Gazetteer.Proofs.Osm.Stray

/-!
# What becomes of the pieces

A path that grows runs along some of the pieces, one behind the other and each in one of its
directions, and writes the vertex at which two of them meet once.  Every join takes the piece
that it adds off the list, so the pieces along the path and those that are left are always
the pieces there were.
-/

namespace Gazetteer.Osm

variable {κ : Type} [BEq κ]

/-! ## Paths along pieces -/

/-- A path runs along pieces that meet end to end.  Of the two equal vertices at which a piece
meets the next one, only one is written. -/
inductive RunsAlong : List (List κ) → List κ → Prop
  | single (piece : List κ) : RunsAlong [piece] piece
  | keepLast {piece next path : List κ} {rest : List (List κ)} (joins : Joins piece next)
      (along : RunsAlong (next :: rest) path) :
      RunsAlong (piece :: next :: rest) (piece ++ path.tail)
  | keepHead {piece next path : List κ} {rest : List (List κ)} (joins : Joins piece next)
      (along : RunsAlong (next :: rest) path) :
      RunsAlong (piece :: next :: rest) (piece.dropLast ++ path)

namespace RunsAlong

variable {walk : List (List κ)} {path piece : List κ}

theorem two_le_length (along : RunsAlong walk path) (long : ∀ piece ∈ walk, 2 ≤ piece.length) :
    2 ≤ path.length := by
  induction along with
  | single piece => exact long piece List.mem_cons_self
  | keepLast _ _ _ =>
      have firstLong := long _ List.mem_cons_self
      rw [List.length_append]
      omega
  | keepHead _ _ ih =>
      have pathLong := ih fun piece member => long piece (.tail _ member)
      rw [List.length_append]
      omega

/-- The path begins where the first piece does. -/
theorem head?_eq {rest : List (List κ)} (along : RunsAlong (piece :: rest) path)
    (long : 2 ≤ piece.length) : path.head? = piece.head? := by
  match piece, long with
  | first :: second :: tail, _ => cases along <;> simp

/-- The path ends where the last piece does. -/
theorem getLast?_eq (along : RunsAlong walk path) (long : ∀ piece ∈ walk, 2 ≤ piece.length) :
    ∀ last ∈ walk.getLast?, path.getLast? = last.getLast? := by
  induction along with
  | single piece => simp
  | @keepLast piece _ path _ _ along ih =>
      have restLong := fun other member => long other (.tail _ member)
      intro last isLast
      rw [getLast?_append_tail piece (along.two_le_length restLong)]
      exact ih restLong last (by simpa using isLast)
  | @keepHead piece _ path _ _ along ih =>
      have restLong := fun other member => long other (.tail _ member)
      have nonempty := ne_nil_of_long (along.two_le_length restLong)
      intro last isLast
      rw [List.getLast?_append_of_ne_nil _ nonempty]
      exact ih restLong last (by simpa using isLast)

/-- A piece that begins where the path ends comes behind the others. -/
theorem concat (along : RunsAlong walk path) (long : ∀ piece ∈ walk, 2 ≤ piece.length)
    (joins : Joins path piece) : RunsAlong (walk ++ [piece]) (path ++ piece.tail) := by
  induction along with
  | single first => exact .keepLast joins (.single piece)
  | @keepLast first next path rest meets along ih =>
      have restLong := fun other member => long other (.tail _ member)
      have pathLong := along.two_le_length restLong
      have nonempty := ne_nil_of_long pathLong
      rw [Joins, getLast?_append_tail first pathLong] at joins
      rw [List.append_assoc, ← List.tail_append_of_ne_nil nonempty]
      exact .keepLast meets (ih restLong joins)
  | @keepHead first next path rest meets along ih =>
      have restLong := fun other member => long other (.tail _ member)
      have nonempty := ne_nil_of_long (along.two_le_length restLong)
      rw [Joins, List.getLast?_append_of_ne_nil _ nonempty] at joins
      rw [List.append_assoc]
      exact .keepHead meets (ih restLong joins)

/-- A piece that ends where the path begins comes before the others. -/
theorem cons (along : RunsAlong walk path) (long : ∀ piece ∈ walk, 2 ≤ piece.length)
    (joins : Joins piece path) : RunsAlong (piece :: walk) (piece.dropLast ++ path) := by
  cases walk with
  | nil => cases along
  | cons first rest =>
      rw [Joins, along.head?_eq (long first List.mem_cons_self)] at joins
      exact .keepHead joins along

end RunsAlong

/-! ## Joining, growing and merging -/

section Merging

variable [PartialEquivBEq κ] {walk : List (List κ)} {path piece longer : List κ}
  {pieces others : List (List κ)}

/-- The joined path runs along one piece more, at one of its ends and in one direction. -/
theorem exists_runsAlong_of_join? (along : RunsAlong walk path)
    (long : ∀ piece ∈ walk, 2 ≤ piece.length) (joined : join? path piece = some longer) :
    ∃ further, RunsAlong further longer ∧ Relisted further (piece :: walk) := by
  have nonempty := ne_nil_of_long (along.two_le_length long)
  have behind (next : List κ) : Relisted (walk ++ [next]) (next :: walk) :=
    .of_perm (List.perm_append_singleton next walk)
  have turned : Relisted (piece.reverse :: walk) (piece :: walk) :=
    .cons (undirected_reverse piece) (.refl walk)
  unfold join? at joined
  split_ifs at joined with endsAtHead endsAtLast beginsAtLast beginsAtHead
  · obtain rfl := Option.some.inj joined
    exact ⟨_, along.concat long (joins_of_beq nonempty endsAtHead), behind piece⟩
  · obtain rfl := Option.some.inj joined
    have joins : Joins path piece.reverse := joins_of_beq nonempty (by simpa using endsAtLast)
    exact ⟨_, along.concat long joins, (behind piece.reverse).trans turned⟩
  · obtain rfl := Option.some.inj joined
    have joins : Joins path.reverse piece.reverse :=
      joins_of_beq (by simpa using nonempty) (by simpa using beginsAtLast)
    exact ⟨_, along.cons long (by simpa using joins.reverse), .refl _⟩
  · obtain rfl := Option.some.inj joined
    have joins : Joins path.reverse piece :=
      joins_of_beq (by simpa using nonempty) (by simpa using beginsAtHead)
    exact ⟨_, along.cons long (by simpa using joins.reverse), turned⟩

/-- What a path runs along and the pieces that are left are the same pieces after a join. -/
theorem exists_runsAlong_of_joinFirst? (along : RunsAlong walk path)
    (long : ∀ piece ∈ walk, 2 ≤ piece.length)
    (joined : joinFirst? path pieces = some (longer, others)) :
    ∃ further, RunsAlong further longer ∧ Relisted (further ++ others) (walk ++ pieces) := by
  obtain ⟨piece, perm, fits⟩ := exists_piece_of_joinFirst? joined
  obtain ⟨further, along, relisted⟩ := exists_runsAlong_of_join? along long fits
  refine ⟨further, along, (relisted.append (.refl others)).trans ?_⟩
  exact .of_perm (List.perm_middle.symm.trans (perm.symm.append_left walk))

theorem exists_runsAlong_grow (along : RunsAlong walk path)
    (long : ∀ piece ∈ walk ++ pieces, 2 ≤ piece.length) :
    ∃ further, RunsAlong further (grow path pieces).1 ∧
      Relisted (further ++ (grow path pieces).2) (walk ++ pieces) := by
  fun_induction grow path pieces generalizing walk with
  | case1 path pieces => exact ⟨walk, along, .refl _⟩
  | case2 path pieces longer others joined ih =>
      have walkLong := fun piece member => long piece (List.mem_append_left pieces member)
      obtain ⟨further, along, relisted⟩ := exists_runsAlong_of_joinFirst? along walkLong joined
      obtain ⟨whole, along, again⟩ := ih along (relisted.symm.le_length long)
      exact ⟨whole, along, again.trans relisted⟩

/-- Every ring that merging returns is closed, has at least four vertices and runs along
pieces of its own: no piece is used twice, and those that are not used are dropped. -/
theorem mergeRings_conserves (long : ∀ piece ∈ pieces, 2 ≤ piece.length) :
    ∃ walks dropped, Relisted (walks.flatten ++ dropped) pieces ∧
      List.Forall₂ (fun walk ring => RunsAlong walk ring ∧ isClosed ring = true ∧ 4 ≤ ring.length)
        walks (mergeRings pieces) := by
  fun_induction mergeRings pieces with
  | case1 => exact ⟨[], [], .refl [], .nil⟩
  | case2 piece rest closed ih =>
      obtain ⟨walks, dropped, relisted, along⟩ :=
        ih fun other member => long other (.tail _ member)
      exact ⟨[piece] :: walks, dropped, .cons rfl relisted,
        .cons ⟨.single piece, isRing_iff.mp closed⟩ along⟩
  | case3 piece rest _ grown closed ih =>
      obtain ⟨walk, grows, relisted⟩ := exists_runsAlong_grow (.single piece) long
      have leftLong := relisted.symm.le_length long
      obtain ⟨walks, dropped, again, along⟩ :=
        ih fun other member => leftLong other (List.mem_append_right walk member)
      refine ⟨walk :: walks, dropped, ?_, .cons ⟨grows, isRing_iff.mp closed⟩ along⟩
      rw [List.flatten_cons, List.append_assoc]
      exact ((Relisted.refl walk).append again).trans relisted
  | case4 piece rest _ grown _ ih =>
      obtain ⟨walk, _, relisted⟩ := exists_runsAlong_grow (.single piece) long
      have leftLong := relisted.symm.le_length long
      obtain ⟨walks, dropped, again, along⟩ :=
        ih fun other member => leftLong other (List.mem_append_right walk member)
      refine ⟨walks, walk ++ dropped, ?_, along⟩
      have moved : (walks.flatten ++ (walk ++ dropped)).Perm
          (walk ++ (walks.flatten ++ dropped)) := List.perm_append_comm_assoc ..
      exact (Relisted.of_perm moved).trans <| ((Relisted.refl walk).append again).trans relisted

end Merging

/-- The two halves of a square and a piece that fits neither of them where they close. -/
theorem mergeRings_conserves_squareHalves :
    let pieces := squareHalves ++ [[⟨1, 1⟩, ⟨2, 2⟩]]
    (∀ piece ∈ pieces, 2 ≤ piece.length) ∧ (mergeRings pieces).length = 1 ∧
      ∃ walks dropped, Relisted (walks.flatten ++ dropped) pieces ∧
        List.Forall₂
          (fun walk ring => RunsAlong walk ring ∧ isClosed ring = true ∧ 4 ≤ ring.length)
          walks (mergeRings pieces) :=
  ⟨by decide, by decide +kernel, mergeRings_conserves (by decide)⟩

end Gazetteer.Osm
