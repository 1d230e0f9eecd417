import Gazetteer.Hierarchy.Cache
import Gazetteer.Proofs.Store

/-!
# Sharing a cache

Several callers may use one cache of chains.  Each looks a chain up, builds it where the cache
has none, and puts it in, and the steps of different callers come in any order.  Two of them
may both miss the same chain, push out what the other has put in, and put in one chain twice.
No caller sees any of this, because all that a cache ever holds are chains as they are built
from scratch.
-/

namespace Gazetteer

variable {K α : Type} {store : Store K} {limit : Nat}

/-! ## What a cache holds -/

namespace ChainCache

theorem mem_of_get? {cache : ChainCache} {key : PlaceId} {chain : Chain}
    (found : cache.get? key = some chain) : (key, chain) ∈ cache.chains := by
  obtain ⟨entry, first, rfl⟩ := Option.map_eq_some_iff.mp found
  obtain rfl : entry.1 = key := by simpa using List.find?_some first
  exact List.mem_of_find?_eq_some first

theorem makeRoom_sublist (capacity : Nat) (order : List PlaceId)
    (chains : List (PlaceId × Chain)) : (makeRoom capacity order chains).2.Sublist chains := by
  fun_induction makeRoom capacity order chains with
  | case1 => exact List.Sublist.refl _
  | case2 chains oldest order _ ih => exact ih.trans List.filter_sublist
  | case3 => exact List.Sublist.refl _

/-- Whatever is taken out, nothing comes in but the chain that is put in. -/
theorem mem_insert {cache : ChainCache} {key : PlaceId} {chain : Chain}
    {entry : PlaceId × Chain} (member : entry ∈ (cache.insert key chain).chains) :
    entry = (key, chain) ∨ entry ∈ cache.chains := by
  unfold insert at member
  split at member
  · exact Or.inr member
  · rcases List.mem_cons.mp member with isNew | kept
    · exact Or.inl isNew
    · exact Or.inr ((makeRoom_sublist ..).subset kept)

end ChainCache

namespace Hierarchy

/-- The chain that the cache has of a place. -/
def lookup? (hierarchy : Hierarchy) (start : Place K) : Option Chain :=
  hierarchy.cache.bind fun cache => cache.get? start.id

/-- Put the chain of a place into the cache. -/
def remember (hierarchy : Hierarchy) (start : Place K) (chain : Chain) : Hierarchy :=
  { hierarchy with cache := hierarchy.cache.map fun cache => cache.insert start.id chain }

theorem resolve_eq (hierarchy : Hierarchy) (store : Store K) (start : Place K) :
    hierarchy.resolve store start =
      match hierarchy.lookup? start with
      | some chain => (chain, hierarchy)
      | none =>
        (Chain.build store start hierarchy.limit,
          hierarchy.remember start (Chain.build store start hierarchy.limit)) :=
  rfl

/-- All chains in the cache are those of stored places, as they are built from scratch. -/
structure Faithful (store : Store K) (limit : Nat) (hierarchy : Hierarchy) : Prop where
  limit_eq : hierarchy.limit = limit
  built : ∀ cache ∈ hierarchy.cache, ∀ entry ∈ cache.chains,
    ∃ place, store.get? entry.1 = some place ∧ Chain.build store place limit = entry.2

theorem Faithful.ofSize (store : Store K) (limit cacheSize : Nat) :
    Faithful store limit (Hierarchy.ofSize limit cacheSize) := by
  constructor
  · rfl
  · intro cache isCache entry member
    obtain ⟨_, empty⟩ := Option.ite_none_left_eq_some.mp isCache
    obtain rfl : ChainCache.empty cacheSize = cache := Option.some.inj empty
    contradiction

theorem Faithful.eq_of_lookup? {hierarchy : Hierarchy} (faithful : Faithful store limit hierarchy)
    {start : Place K} (stored : store.get? start.id = some start) {chain : Chain}
    (found : hierarchy.lookup? start = some chain) : Chain.build store start limit = chain := by
  obtain ⟨cache, isCache, found⟩ := Option.bind_eq_some_iff.mp found
  obtain ⟨place, placed, built⟩ := faithful.built cache isCache _ (ChainCache.mem_of_get? found)
  obtain rfl : start = place := Option.some.inj (stored.symm.trans placed)
  exact built

theorem Faithful.remember {hierarchy : Hierarchy} (faithful : Faithful store limit hierarchy)
    {start : Place K} (stored : store.get? start.id = some start) :
    Faithful store limit (hierarchy.remember start (Chain.build store start limit)) := by
  constructor
  · exact faithful.limit_eq
  · intro cache isCache entry member
    obtain ⟨before, wasCache, rfl⟩ := Option.map_eq_some_iff.mp isCache
    rcases ChainCache.mem_insert member with rfl | earlier
    · exact ⟨start, stored, rfl⟩
    · exact faithful.built before wasCache entry earlier

end Hierarchy

/-! ## A caller -/

/-- Where a caller stands who needs the chain of a place for a result. -/
inductive Call (K α : Type) where
  /-- The cache has not been asked yet. -/
  | asking (start : Place K) (finish : Chain → α)
  /-- The cache does not have the chain. -/
  | missed (start : Place K) (finish : Chain → α)
  /-- The chain is built, but not in the cache yet. -/
  | holding (start : Place K) (chain : Chain) (finish : Chain → α)
  | finished (result : α)

namespace Call

/-- One step of a caller, and what it does to the cache. -/
def step (store : Store K) (hierarchy : Hierarchy) : Call K α → Call K α × Hierarchy
  | asking start finish =>
    match hierarchy.lookup? start with
    | some chain => (finished (finish chain), hierarchy)
    | none => (missed start finish, hierarchy)
  | missed start finish =>
    (holding start (Chain.build store start hierarchy.limit) finish, hierarchy)
  | holding start chain finish => (finished (finish chain), hierarchy.remember start chain)
  | finished result => (finished result, hierarchy)

/-- The place is stored, and a chain that is held is the one built from scratch. -/
def Sound (store : Store K) (limit : Nat) : Call K α → Prop
  | asking start _ => store.get? start.id = some start
  | missed start _ => store.get? start.id = some start
  | holding start chain _ =>
    store.get? start.id = some start ∧ chain = Chain.build store start limit
  | finished _ => True

/-- The result that a caller comes to without a cache. -/
def promise (store : Store K) (limit : Nat) : Call K α → α
  | asking start finish => finish (Chain.build store start limit)
  | missed start finish => finish (Chain.build store start limit)
  | holding _ chain finish => finish chain
  | finished result => result

/-- The most steps that a caller may have to take. -/
def remaining : Call K α → Nat
  | asking .. => 3
  | missed .. => 2
  | holding .. => 1
  | finished _ => 0

theorem remaining_le (call : Call K α) : call.remaining ≤ 3 := by
  cases call <;> simp [remaining]

theorem eq_finished_of_remaining {call : Call K α} (done : call.remaining = 0) :
    call = finished (call.promise store limit) := by
  cases call with
  | finished result => rfl
  | asking start finish => contradiction
  | missed start finish => contradiction
  | holding start chain finish => contradiction

theorem remaining_step (store : Store K) (hierarchy : Hierarchy) (call : Call K α) :
    (call.step store hierarchy).1.remaining ≤ call.remaining - 1 := by
  cases call with
  | asking start finish =>
      rw [step]
      split
      · exact Nat.zero_le _
      · exact Nat.le_refl _
  | missed start finish => exact Nat.le_refl _
  | holding start chain finish => exact Nat.le_refl _
  | finished result => exact Nat.le_refl _

/-- A step keeps the cache faithful, and the caller sound and to the same result. -/
theorem step_faithful {hierarchy : Hierarchy} (faithful : hierarchy.Faithful store limit)
    {call : Call K α} (sound : call.Sound store limit) :
    (call.step store hierarchy).2.Faithful store limit ∧
      (call.step store hierarchy).1.Sound store limit ∧
      (call.step store hierarchy).1.promise store limit = call.promise store limit := by
  cases call with
  | asking start finish =>
      rw [step]
      split
      · rename_i chain found
        refine ⟨faithful, trivial, ?_⟩
        rw [promise, promise, faithful.eq_of_lookup? sound found]
      · exact ⟨faithful, sound, rfl⟩
  | missed start finish =>
      rw [step, faithful.limit_eq]
      exact ⟨faithful, ⟨sound, rfl⟩, rfl⟩
  | holding start chain finish =>
      obtain ⟨stored, rfl⟩ := sound
      exact ⟨faithful.remember stored, trivial, rfl⟩
  | finished result => exact ⟨faithful, trivial, rfl⟩

end Call

/-! ## Callers that share a cache -/

/-- Callers, and the cache that they share. -/
structure Sharing (K α : Type) where
  hierarchy : Hierarchy
  calls : List (Call K α)

namespace Sharing

/-- One step of the caller at a position; where there is no caller, nothing happens. -/
def step (store : Store K) (sharing : Sharing K α) (caller : Nat) : Sharing K α :=
  match sharing.calls[caller]? with
  | none => sharing
  | some call =>
    let (call, hierarchy) := call.step store sharing.hierarchy
    ⟨hierarchy, sharing.calls.set caller call⟩

/-- One step for each caller of a schedule, in order. -/
def run (store : Store K) (sharing : Sharing K α) (schedule : List Nat) : Sharing K α :=
  schedule.foldl (step store) sharing

/-- The cache is faithful and all callers are sound. -/
structure Sound (store : Store K) (limit : Nat) (sharing : Sharing K α) : Prop where
  faithful : sharing.hierarchy.Faithful store limit
  calls : ∀ call ∈ sharing.calls, call.Sound store limit

/-- Callers that ask for the chains of stored places are sound. -/
theorem starts_sound {hierarchy : Hierarchy} (faithful : hierarchy.Faithful store limit)
    (starts : List (Place K)) (members : ∀ start ∈ starts, start ∈ store.toList) :
    Sound store limit ⟨hierarchy, starts.map fun start => .asking start id⟩ := by
  constructor
  · exact faithful
  · intro call member
    obtain ⟨start, among, rfl⟩ := List.mem_map.mp member
    exact Store.get?_id_of_mem (members start among)

theorem step_sound {sharing : Sharing K α} (sound : sharing.Sound store limit) (caller : Nat) :
    (sharing.step store caller).Sound store limit ∧
      (sharing.step store caller).calls.map (Call.promise store limit) =
        sharing.calls.map (Call.promise store limit) := by
  unfold step
  split
  · exact ⟨sound, rfl⟩
  · rename_i call found
    obtain ⟨faithful, callSound, kept⟩ :=
      Call.step_faithful sound.faithful (sound.calls call (List.mem_of_getElem? found))
    have callsSound : ∀ other ∈ sharing.calls.set caller (call.step store sharing.hierarchy).1,
        other.Sound store limit := by
      intro other member
      rcases List.mem_or_eq_of_mem_set member with earlier | rfl
      · exact sound.calls other earlier
      · exact callSound
    constructor
    · exact ⟨faithful, callsSound⟩
    · -- The stepping caller keeps its promise, so putting it back changes no promise.
      have promised : (sharing.calls.map (Call.promise store limit))[caller]? =
          some (call.promise store limit) := by
        rw [List.getElem?_map, found, Option.map_some]
      obtain ⟨bound, here⟩ := List.getElem?_eq_some_iff.mp promised
      rw [List.map_set, kept, ← here, List.set_getElem_self]

/-- Whatever the schedule, no caller comes to another result. -/
theorem run_sound {sharing : Sharing K α} (sound : sharing.Sound store limit)
    (schedule : List Nat) :
    (sharing.run store schedule).Sound store limit ∧
      (sharing.run store schedule).calls.map (Call.promise store limit) =
        sharing.calls.map (Call.promise store limit) := by
  induction schedule generalizing sharing with
  | nil => exact ⟨sound, rfl⟩
  | cons caller rest ih =>
      obtain ⟨stepSound, kept⟩ := step_sound sound caller
      obtain ⟨runSound, keptOn⟩ := ih stepSound
      exact ⟨runSound, keptOn.trans kept⟩

theorem remaining_step (store : Store K) {sharing : Sharing K α} {caller : Nat}
    {call : Call K α} (found : sharing.calls[caller]? = some call) (other : Nat) :
    ∃ after, (sharing.step store other).calls[caller]? = some after ∧
      after.remaining ≤ call.remaining - [other].count caller := by
  unfold step
  by_cases same : other = caller
  · subst same
    obtain ⟨bound, _⟩ := List.getElem?_eq_some_iff.mp found
    rw [found]
    refine ⟨(call.step store sharing.hierarchy).1, List.getElem?_set_self bound, ?_⟩
    rw [List.count_singleton_self]
    exact Call.remaining_step store sharing.hierarchy call
  · refine ⟨call, ?_, by simp [same]⟩
    split
    · exact found
    · rw [List.getElem?_set_ne same]
      exact found

/-- A caller's own steps bring it forward, and the steps of the others never back. -/
theorem remaining_run (store : Store K) {sharing : Sharing K α} {caller : Nat}
    {call : Call K α} (found : sharing.calls[caller]? = some call) (schedule : List Nat) :
    ∃ after, (sharing.run store schedule).calls[caller]? = some after ∧
      after.remaining ≤ call.remaining - schedule.count caller := by
  induction schedule generalizing sharing call with
  | nil => exact ⟨call, found, Nat.le_refl _⟩
  | cons other rest ih =>
      obtain ⟨between, stepped, forward⟩ := remaining_step store found other
      obtain ⟨after, ended, further⟩ := ih stepped
      refine ⟨after, ended, ?_⟩
      calc after.remaining
          ≤ between.remaining - rest.count caller := further
        _ ≤ call.remaining - [other].count caller - rest.count caller :=
            Nat.sub_le_sub_right forward _
        _ = call.remaining - (other :: rest).count caller := by
            rw [Nat.sub_sub, ← List.count_append, List.singleton_append]

/-- Whatever the schedule, the caller can come to this result only, and with three steps of
its own it does. -/
def Returns (store : Store K) (sharing : Sharing K α) (caller : Nat) (result : α) : Prop :=
  ∀ schedule,
    (∀ other, (sharing.run store schedule).calls[caller]? = some (.finished other) →
      other = result) ∧
    (3 ≤ schedule.count caller →
      (sharing.run store schedule).calls[caller]? = some (.finished result))

/-- Every caller returns the result that it comes to without a cache. -/
theorem Sound.returns {sharing : Sharing K α} (sound : sharing.Sound store limit)
    {caller : Nat} {call : Call K α} (found : sharing.calls[caller]? = some call) :
    sharing.Returns store caller (call.promise store limit) := by
  intro schedule
  obtain ⟨_, kept⟩ := run_sound sound schedule
  have promised : ∀ after, (sharing.run store schedule).calls[caller]? = some after →
      after.promise store limit = call.promise store limit := by
    intro after ended
    have same := congrArg (fun promises => promises[caller]?) kept
    simpa [found, ended] using same
  constructor
  · intro other ended
    exact promised _ ended
  · intro often
    obtain ⟨after, ended, few⟩ := remaining_run store found schedule
    rw [Nat.sub_eq_zero_of_le (Nat.le_trans call.remaining_le often)] at few
    have done : after.remaining = 0 := Nat.le_zero.mp few
    rw [ended, ← promised after ended]
    exact congrArg some (Call.eq_finished_of_remaining done)

/-- Alone, three steps do what `Hierarchy.resolve` does. -/
theorem run_alone (store : Store K) (hierarchy : Hierarchy) (start : Place K)
    (finish : Chain → α) :
    run store ⟨hierarchy, [.asking start finish]⟩ [0, 0, 0] =
      ⟨(hierarchy.resolve store start).2,
        [.finished (finish (hierarchy.resolve store start).1)]⟩ := by
  rw [Hierarchy.resolve_eq]
  cases found : hierarchy.lookup? start with
  | some chain => simp [run, step, Call.step, found]
  | none => simp [run, step, Call.step, found]

end Sharing

end Gazetteer
