import Gazetteer.Hierarchy.Cache
import Mathlib.Data.List.Induction
import Mathlib.Data.List.Nodup

/-!
# What a cache holds

The chains of a cache and the order of their keys are kept side by side, and room is made by
taking out one key after the other.  Both stay in step: the order is that of the chains, turned
round.  So a cache never holds more chains than it may, no more than one key is ever in the way
of a new one, and that key is the oldest.

The age of a key is counted from the insertion that found it absent, since when it has been in
the cache without a break.  Inserting it again gives it neither another chain nor another age.
-/

namespace Gazetteer.ChainCache

/-! ## One insertion -/

theorem get?_eq_none_iff {cache : ChainCache} {key : PlaceId} :
    cache.get? key = none ↔ key ∉ cache.chains.map Prod.fst := by
  simp only [get?, Option.map_eq_none_iff, List.find?_eq_none, beq_iff_eq, List.mem_map,
    not_exists, not_and]

theorem makeRoom_of_lt {capacity : Nat} {chains : List (PlaceId × Chain)}
    (order : List PlaceId) (room : chains.length < capacity) :
    makeRoom capacity order chains = (order, chains) := by
  cases order with
  | nil => rfl
  | cons oldest rest => rw [makeRoom, if_neg (Nat.not_le.mpr room)]

/-- An insertion makes no difference where caching is off or the key is there already. -/
theorem insert_cases (cache : ChainCache) (key : PlaceId) (chain : Chain) :
    cache.insert key chain = cache ∨ cache.capacity ≠ 0 ∧ cache.get? key = none := by
  by_cases kept : cache.capacity = 0 ∨ (cache.get? key).isSome = true
  · exact Or.inl (if_pos kept)
  · obtain ⟨positive, absent⟩ := not_or.mp kept
    exact Or.inr ⟨positive, Option.not_isSome_iff_eq_none.mp absent⟩

/-- The key that makes way for a new one: the oldest, where the cache is full. -/
def displaced? (cache : ChainCache) : Option PlaceId :=
  if cache.size = cache.capacity then cache.order.head? else none

/-- The chains and the order of a cache are in step. -/
structure InStep (cache : ChainCache) : Prop where
  /-- The chain that came last stands first. -/
  keys_eq : cache.chains.map Prod.fst = cache.order.reverse
  nodup : cache.order.Nodup
  size_le : cache.size ≤ cache.capacity

namespace InStep

variable {cache : ChainCache}

theorem empty (capacity : Nat) : InStep (ChainCache.empty capacity) :=
  ⟨rfl, List.nodup_nil, Nat.zero_le capacity⟩

theorem length_order (inStep : cache.InStep) : cache.order.length = cache.size := by
  have same := congrArg List.length inStep.keys_eq
  simpa [size] using same.symm

theorem get?_eq_none_iff (inStep : cache.InStep) {key : PlaceId} :
    cache.get? key = none ↔ key ∉ cache.order := by
  rw [ChainCache.get?_eq_none_iff, inStep.keys_eq, List.mem_reverse]

theorem mem_order_iff (inStep : cache.InStep) {key : PlaceId} :
    key ∈ cache.order ↔ (cache.get? key).isSome = true := by
  rw [← not_iff_not, ← inStep.get?_eq_none_iff]
  simp

theorem mem_order_of_displaced? {oldest : PlaceId} (goes : cache.displaced? = some oldest) :
    oldest ∈ cache.order :=
  List.mem_of_head? (Option.ite_none_right_eq_some.mp goes).2

theorem length_filter_lt_size (inStep : cache.InStep) {oldest : PlaceId}
    (goes : cache.displaced? = some oldest) :
    (cache.chains.filter fun entry => cache.displaced? ≠ some entry.1).length < cache.size := by
  have member : oldest ∈ cache.chains.map Prod.fst := by
    simpa [inStep.keys_eq] using mem_order_of_displaced? goes
  obtain ⟨entry, among, rfl⟩ := List.mem_map.mp member
  rw [size, List.length_filter_lt_length_iff_exists]
  exact ⟨entry, among, by simp [goes]⟩

/-- Room is made by taking out the displaced key, and no other. -/
theorem makeRoom_eq (inStep : cache.InStep) :
    makeRoom cache.capacity cache.order cache.chains =
      (cache.order.filter fun key => cache.displaced? ≠ some key,
        cache.chains.filter fun entry => cache.displaced? ≠ some entry.1) := by
  by_cases full : cache.size = cache.capacity
  · cases order : cache.order with
    | nil =>
        have none : cache.chains = [] := by simpa [order] using inStep.keys_eq
        rw [none]
        rfl
    | cons oldest rest =>
        have goes : cache.displaced? = some oldest := by rw [displaced?, if_pos full, order]; rfl
        have shorter := full ▸ inStep.length_filter_lt_size goes
        have alone : oldest ∉ rest := (List.nodup_cons.mp (order ▸ inStep.nodup)).1
        have kept : (oldest :: rest).filter (fun key => some oldest ≠ some key) = rest := by
          rw [List.filter_cons_of_neg (by simp), List.filter_eq_self]
          intro key member
          simpa using fun same : oldest = key => alone (same ▸ member)
        have sameEntries : (cache.chains.filter fun entry => some oldest ≠ some entry.1) =
            cache.chains.filter fun entry => entry.1 != oldest := by
          refine List.filter_congr fun entry _ => ?_
          rw [Bool.eq_iff_iff, decide_eq_true_iff, bne_iff_ne, ne_comm, Option.some_inj.ne]
        have isFull : cache.capacity ≤ cache.chains.length := Nat.le_of_eq full.symm
        rw [goes, sameEntries] at shorter
        rw [makeRoom, if_pos isFull, makeRoom_of_lt rest shorter, goes, kept, sameEntries]
  · have room : cache.chains.length < cache.capacity := Nat.lt_of_le_of_ne inStep.size_le full
    rw [makeRoom_of_lt _ room, displaced?, if_neg full, List.filter_eq_self.mpr (by simp),
      List.filter_eq_self.mpr (by simp)]

/-- A new key is put in at the cost of the displaced one. -/
theorem insert_eq (inStep : cache.InStep) {key : PlaceId} (chain : Chain)
    (positive : cache.capacity ≠ 0) (absent : cache.get? key = none) :
    cache.insert key chain =
      ⟨cache.capacity,
        (key, chain) :: cache.chains.filter fun entry => cache.displaced? ≠ some entry.1,
        (cache.order.filter fun key => cache.displaced? ≠ some key) ++ [key]⟩ := by
  rw [insert, if_neg (by simp [positive, absent]), inStep.makeRoom_eq]

theorem length_filter_lt_capacity (inStep : cache.InStep) (positive : cache.capacity ≠ 0) :
    (cache.chains.filter fun entry => cache.displaced? ≠ some entry.1).length <
      cache.capacity := by
  by_cases full : cache.size = cache.capacity
  · have nonempty : cache.order ≠ [] := by
      rw [← List.length_pos_iff, inStep.length_order, full]
      exact Nat.pos_of_ne_zero positive
    have goes : cache.displaced? = some (cache.order.head nonempty) := by
      rw [displaced?, if_pos full, List.head?_eq_some_head nonempty]
    exact full ▸ inStep.length_filter_lt_size goes
  · exact Nat.lt_of_le_of_lt (List.length_filter_le ..) (Nat.lt_of_le_of_ne inStep.size_le full)

theorem insert (inStep : cache.InStep) (key : PlaceId) (chain : Chain) :
    (cache.insert key chain).InStep := by
  rcases insert_cases cache key chain with same | ⟨positive, absent⟩
  · rwa [same]
  · rw [inStep.insert_eq chain positive absent]
    have alone := inStep.get?_eq_none_iff.mp absent
    constructor
    · have keys : (cache.chains.filter fun entry => cache.displaced? ≠ some entry.1).map Prod.fst =
          (cache.order.filter fun key => cache.displaced? ≠ some key).reverse := by
        rw [← List.filter_reverse, ← inStep.keys_eq, List.filter_map]
        rfl
      simp only [List.map_cons, keys, List.reverse_append, List.reverse_singleton,
        List.singleton_append]
    · rw [List.nodup_append]
      refine ⟨inStep.nodup.filter _, List.nodup_singleton key, ?_⟩
      rintro other member _ isKey rfl
      obtain rfl := List.mem_singleton.mp isKey
      exact alone (List.mem_filter.mp member).1
    · exact inStep.length_filter_lt_capacity positive

/-- A new key takes only the displaced key's place. -/
theorem get?_insert (inStep : cache.InStep) {key : PlaceId} (chain : Chain)
    (positive : cache.capacity ≠ 0) (absent : cache.get? key = none) (other : PlaceId) :
    (cache.insert key chain).get? other =
      if other = key then some chain
      else if cache.displaced? = some other then none
      else cache.get? other := by
  rw [inStep.insert_eq chain positive absent, get?]
  by_cases isKey : other = key
  · simp [isKey]
  · rw [if_neg isKey, List.find?_cons_of_neg (by simpa using Ne.symm isKey), List.find?_filter]
    by_cases goes : cache.displaced? = some other
    · rw [if_pos goes, Option.map_eq_none_iff, List.find?_eq_none]
      intro entry _ found
      simp only [goes, decide_eq_true_eq, beq_iff_eq] at found
      exact found.1 (congrArg some found.2.symm)
    · rw [if_neg goes, get?]
      congr 2
      funext entry
      rw [Bool.eq_iff_iff]
      simp only [decide_eq_true_eq, beq_iff_eq, and_iff_right_iff_imp]
      rintro rfl
      exact goes

end InStep

/-! ## A run -/

/-- An access to a cache. -/
inductive Access where
  | lookup (key : PlaceId)
  | insertion (key : PlaceId) (chain : Chain)
deriving DecidableEq

namespace Access

def isInsertion : Access → Bool
  | lookup _ => false
  | insertion .. => true

end Access

/-- The cache after an access; a lookup leaves it as it is. -/
def step (cache : ChainCache) : Access → ChainCache
  | .lookup _ => cache
  | .insertion key chain => cache.insert key chain

/-- What becomes of an empty cache. -/
def run (capacity : Nat) (accesses : List Access) : ChainCache :=
  accesses.foldl step (empty capacity)

variable {capacity : Nat} {accesses : List Access} {access : Access} {time : Nat}
  {key : PlaceId} {chain : Chain}

theorem run_concat (capacity : Nat) (accesses : List Access) (access : Access) :
    run capacity (accesses ++ [access]) = (run capacity accesses).step access := by
  rw [run, List.foldl_append, ← run]
  rfl

theorem capacity_insert (cache : ChainCache) (key : PlaceId) (chain : Chain) :
    (cache.insert key chain).capacity = cache.capacity := by
  rw [insert]
  split <;> rfl

theorem InStep.step {cache : ChainCache} (inStep : cache.InStep) (access : Access) :
    (cache.step access).InStep := by
  cases access with
  | lookup key => exact inStep
  | insertion key chain => exact inStep.insert key chain

/-- Whatever is done with a cache, its chains and their order stay in step. -/
theorem inStep_run (capacity : Nat) (accesses : List Access) :
    (run capacity accesses).InStep ∧ (run capacity accesses).capacity = capacity := by
  induction accesses using List.reverseRecOn with
  | nil => exact ⟨.empty capacity, rfl⟩
  | append_singleton accesses access ih =>
      rw [run_concat]
      refine ⟨ih.1.step access, ?_⟩
      cases access with
      | lookup key => exact ih.2
      | insertion key chain => exact (capacity_insert ..).trans ih.2

/-- A key has been in the cache without a break from some time on: the access at that time
inserted it with this chain when it was absent. -/
structure StoredSince (capacity : Nat) (accesses : List Access) (time : Nat) (key : PlaceId)
    (chain : Chain) : Prop where
  inserted : accesses[time]? = some (.insertion key chain)
  absent : (run capacity (accesses.take time)).get? key = none
  present : ∀ later, time < later → later ≤ accesses.length →
    ((run capacity (accesses.take later)).get? key).isSome = true

theorem StoredSince.lt_length (since : StoredSince capacity accesses time key chain) :
    time < accesses.length :=
  (List.getElem?_eq_some_iff.mp since.inserted).1

/-- One more access either leaves a key where it has been, or puts it in. -/
theorem storedSince_concat_iff :
    StoredSince capacity (accesses ++ [access]) time key chain ↔
      (StoredSince capacity accesses time key chain ∨
        time = accesses.length ∧ access = .insertion key chain ∧
          (run capacity accesses).get? key = none) ∧
      (((run capacity accesses).step access).get? key).isSome = true := by
  rw [← run_concat]
  constructor
  · rintro ⟨inserted, absent, present⟩
    have bound : time < accesses.length + 1 := by
      simpa using (List.getElem?_eq_some_iff.mp inserted).1
    refine ⟨?_, ?_⟩
    · rcases Nat.lt_or_ge time accesses.length with before | reaches
      · refine Or.inl ⟨?_, ?_, ?_⟩
        · rwa [List.getElem?_append_left before] at inserted
        · rwa [List.take_append_of_le_length (Nat.le_of_lt before)] at absent
        · intro later after within
          have present := present later after (by simp; omega)
          rwa [List.take_append_of_le_length within] at present
      · obtain rfl : time = accesses.length := by omega
        refine Or.inr ⟨rfl, ?_, ?_⟩
        · simpa using inserted
        · simpa using absent
    · have present := present (accesses.length + 1) bound (by simp)
      rwa [List.take_of_length_le (by simp)] at present
  · rintro ⟨since | ⟨rfl, rfl, absent⟩, still⟩
    · have before := since.lt_length
      refine ⟨?_, ?_, ?_⟩
      · rw [List.getElem?_append_left before, since.inserted]
      · rw [List.take_append_of_le_length (Nat.le_of_lt before), since.absent]
      · intro later after within
        rcases Nat.lt_or_ge accesses.length later with last | within
        · rwa [List.take_of_length_le (by simp; omega)]
        · rw [List.take_append_of_le_length within]
          exact since.present later after within
    · refine ⟨by simp, by simpa using absent, ?_⟩
      intro later after within
      rwa [List.take_of_length_le (by simp; omega)]

/-- An access changes the chain of a key only by putting one in where there is none, or by
taking it out. -/
theorem InStep.get?_step_eq_some_iff {cache : ChainCache} (inStep : cache.InStep) :
    (cache.step access).get? key = some chain ↔
      (cache.get? key = some chain ∨ access = .insertion key chain ∧ cache.get? key = none) ∧
        ((cache.step access).get? key).isSome = true := by
  have unchanged (same : cache.step access = cache) :
      (cache.step access).get? key = some chain ↔
        (cache.get? key = some chain ∨ access = .insertion key chain ∧ cache.get? key = none) ∧
          ((cache.step access).get? key).isSome = true := by
    rw [same]
    constructor
    · intro found
      exact ⟨Or.inl found, Option.isSome_of_eq_some found⟩
    · rintro ⟨found | ⟨_, absent⟩, isSome⟩
      · exact found
      · simp [absent] at isSome
  cases access with
  | lookup other => exact unchanged rfl
  | insertion new put =>
      rcases insert_cases cache new put with same | ⟨positive, absent⟩
      · exact unchanged same
      · rw [ChainCache.step, inStep.get?_insert put positive absent]
        by_cases isNew : key = new
        · simp [isNew, absent]
        · rw [if_neg isNew]
          by_cases goes : cache.displaced? = some key
          · simp [goes]
          · have differs : Access.insertion new put ≠ .insertion key chain :=
              fun same => isNew (Access.insertion.inj same).1.symm
            rw [if_neg goes, or_iff_left fun both => differs both.1]
            exact ⟨fun found => ⟨found, Option.isSome_of_eq_some found⟩, And.left⟩

/-- The chain of a key is the one since whose insertion the key has been there. -/
theorem get?_run_eq_some_iff :
    (run capacity accesses).get? key = some chain ↔
      ∃ time, StoredSince capacity accesses time key chain := by
  induction accesses using List.reverseRecOn with
  | nil =>
      refine iff_of_false (by simp [run, empty, get?]) ?_
      rintro ⟨time, since⟩
      exact Nat.not_lt_zero _ since.lt_length
  | append_singleton accesses access ih =>
      rw [run_concat, (inStep_run capacity accesses).1.get?_step_eq_some_iff, ih]
      simp only [storedSince_concat_iff, exists_and_right, exists_or, exists_eq, true_and]

/-- A key that is still there has been there since the same time. -/
theorem StoredSince.concat (since : StoredSince capacity accesses time key chain)
    (still : key ∈ ((run capacity accesses).step access).order) :
    StoredSince capacity (accesses ++ [access]) time key chain :=
  storedSince_concat_iff.mpr
    ⟨Or.inl since, ((inStep_run capacity accesses).1.step access).mem_order_iff.mp still⟩

/-- One key has been in the cache for longer than another. -/
def IsOlder (capacity : Nat) (accesses : List Access) (older newer : PlaceId) : Prop :=
  ∃ time chain later other, StoredSince capacity accesses time older chain ∧
    StoredSince capacity accesses later newer other ∧ time < later

theorem pairwise_isOlder_concat {order : List PlaceId}
    (pairwise : order.Pairwise (IsOlder capacity accesses))
    (still : order ⊆ ((run capacity accesses).step access).order) :
    order.Pairwise (IsOlder capacity (accesses ++ [access])) := by
  refine pairwise.imp_of_mem fun isOlder isNewer => ?_
  rintro ⟨time, chain, later, other, since, alsoSince, before⟩
  exact ⟨time, chain, later, other, since.concat (still isOlder),
    alsoSince.concat (still isNewer), before⟩

/-- The order of the keys is that of their ages. -/
theorem pairwise_order_run (capacity : Nat) (accesses : List Access) :
    (run capacity accesses).order.Pairwise (IsOlder capacity accesses) := by
  induction accesses using List.reverseRecOn with
  | nil => exact List.Pairwise.nil
  | append_singleton accesses access ih =>
      rw [run_concat]
      have unchanged (same : (run capacity accesses).step access = run capacity accesses) :
          ((run capacity accesses).step access).order.Pairwise
            (IsOlder capacity (accesses ++ [access])) := by
        refine pairwise_isOlder_concat ?_ (List.Subset.refl _)
        rwa [same]
      cases access with
      | lookup key => exact unchanged rfl
      | insertion key chain =>
          rcases insert_cases (run capacity accesses) key chain with same | ⟨positive, absent⟩
          · exact unchanged same
          · have inStep := (inStep_run capacity accesses).1
            obtain ⟨kept, isKept, order⟩ : ∃ kept, kept.Sublist (run capacity accesses).order ∧
                ((run capacity accesses).step (.insertion key chain)).order = kept ++ [key] :=
              ⟨_, List.filter_sublist, congrArg ChainCache.order
                (inStep.insert_eq chain positive absent)⟩
            have still : ∀ other ∈ kept ++ [key],
                other ∈ ((run capacity accesses).step (.insertion key chain)).order :=
              fun _ member => order.symm ▸ member
            rw [order]
            refine List.pairwise_append.mpr ⟨?_, List.pairwise_singleton _ _, ?_⟩
            · exact pairwise_isOlder_concat (ih.sublist isKept)
                fun other member => still other (List.mem_append_left _ member)
            · intro older member newer isNew
              obtain rfl := List.mem_singleton.mp isNew
              -- the new key is the youngest
              obtain ⟨stored, found⟩ := Option.isSome_iff_exists.mp <|
                inStep.mem_order_iff.mp (isKept.subset member)
              obtain ⟨time, since⟩ := get?_run_eq_some_iff.mp found
              have entered : StoredSince capacity (accesses ++ [.insertion newer chain])
                  accesses.length newer chain :=
                storedSince_concat_iff.mpr ⟨Or.inr ⟨rfl, rfl, absent⟩,
                  (inStep.step _).mem_order_iff.mp (still newer (by simp))⟩
              exact ⟨time, stored, accesses.length, chain,
                since.concat (still older (List.mem_append_left _ member)), entered,
                since.lt_length⟩

/-! ## The cache after a run -/

/-- What a cache holds after some accesses. -/
structure Holds (capacity : Nat) (accesses : List Access) (cache : ChainCache) : Prop where
  size_le : cache.size ≤ capacity
  /-- The order lists the keys that are there, each of them once. -/
  mem_order_iff : ∀ key, key ∈ cache.order ↔ (cache.get? key).isSome = true
  nodup : cache.order.Nodup
  length_order : cache.order.length = cache.size
  /-- The oldest key comes first. -/
  oldestFirst : cache.order.Pairwise (IsOlder capacity accesses)
  /-- The chain of a key is the one since whose insertion the key has been there. -/
  get?_eq_some_iff : ∀ key chain, cache.get? key = some chain ↔
    ∃ time, StoredSince capacity accesses time key chain

/-- What becomes of a cache when a key is inserted: the key is there, and for it at most the
displaced key is gone. -/
structure Admits (cache : ChainCache) (key : PlaceId) (after : ChainCache) : Prop where
  isSome : (after.get? key).isSome = true
  others : ∀ other, other ≠ key → after.get? other =
    if cache.get? key = none ∧ cache.displaced? = some other then none else cache.get? other

theorem InStep.admits {cache : ChainCache} (inStep : cache.InStep) (positive : cache.capacity ≠ 0)
    (key : PlaceId) (chain : Chain) : Admits cache key (cache.insert key chain) := by
  rcases Option.eq_none_or_eq_some (cache.get? key) with absent | ⟨stored, found⟩
  · constructor
    · simp [inStep.get?_insert chain positive absent]
    · intro other differs
      rw [inStep.get?_insert chain positive absent, if_neg differs]
      simp [absent]
  · have same : cache.insert key chain = cache := if_pos (Or.inr (Option.isSome_of_eq_some found))
    rw [same]
    exact ⟨Option.isSome_of_eq_some found, fun other _ => by simp [found]⟩

theorem run_filter_isInsertion (capacity : Nat) (accesses : List Access) :
    run capacity (accesses.filter Access.isInsertion) = run capacity accesses := by
  rw [run, List.foldl_filter, run]
  congr
  funext cache access
  cases access <;> rfl

/-- A cache holds no more chains than it may, in the order of their ages, and each key with the
chain of its insertion; an insertion takes at most the oldest key out, and that only from a
full cache; lookups make no difference. -/
theorem run_holds (capacity : Nat) (accesses : List Access) :
    Holds capacity accesses (run capacity accesses) ∧
      (0 < capacity → ∀ key chain,
        Admits (run capacity accesses) key ((run capacity accesses).insert key chain)) ∧
      run capacity (accesses.filter Access.isInsertion) = run capacity accesses := by
  obtain ⟨inStep, sameCapacity⟩ := inStep_run capacity accesses
  refine ⟨⟨?_, ?_, ?_, ?_, ?_, ?_⟩, ?_, ?_⟩
  · exact Nat.le_trans inStep.size_le (Nat.le_of_eq sameCapacity)
  · exact fun key => inStep.mem_order_iff
  · exact inStep.nodup
  · exact inStep.length_order
  · exact pairwise_order_run capacity accesses
  · exact fun key chain => get?_run_eq_some_iff
  · intro positive
    exact inStep.admits (by omega)
  · exact run_filter_isInsertion capacity accesses

/-- Three keys for two places in a cache.  The first is inserted twice and looked up, and goes
first all the same. -/
def threeKeys : List Access :=
  [.insertion 1 ⟨[⟨1, 30⟩], false⟩, .insertion 2 ⟨[⟨2, 26⟩], false⟩, .insertion 1 ⟨[], true⟩,
    .lookup 1, .insertion 3 ⟨[⟨3, 16⟩], false⟩]

theorem run_holds_threeKeys :
    0 < 2 ∧ Holds 2 threeKeys (run 2 threeKeys) ∧ (run 2 threeKeys).order = [2, 3] ∧
      ((run 2 threeKeys).insert 1 ⟨[], true⟩).get? 2 = none := by
  obtain ⟨holds, admits, _⟩ := run_holds 2 threeKeys
  refine ⟨Nat.two_pos, holds, by decide, ?_⟩
  rw [(admits Nat.two_pos 1 ⟨[], true⟩).others 2 (by decide)]
  decide

end Gazetteer.ChainCache
