import Gazetteer.Proofs.Geocoder.Detail
import Gazetteer.Proofs.Hierarchy.Sharing

/-!
# Sharing the cache of a geocoder

A request needs the chain of the place that it is matched to, and nothing else of the cache.
So requests that are answered at the same time, or one after the other, get the answers that
a geocoder without a cache gives.
-/

namespace Gazetteer.Geocoder

variable {K : Type} [Scalar K]

/-- A request as a caller that needs the chain of its match.  Where the request is refused or
nothing is matched, the caller never asks the cache. -/
def call (geocoder : Geocoder K) (request : Request K) :
    Call K (Except (Failure K) (Answer K)) :=
  match request.validate with
  | .error failure => .finished (.error failure)
  | .ok _ =>
    match geocoder.findMatch? request.position with
    | none => .finished (.error .noCoverage)
    | some (matched, distance) => .asking matched (geocoder.answer request matched distance)

theorem call_sound (geocoder : Geocoder K) (request : Request K) :
    (geocoder.call request).Sound geocoder.store geocoder.maxChainLength := by
  unfold call
  split
  · trivial
  · split
    · trivial
    · rename_i matched distance found
      exact Store.get?_id_of_mem (mem_of_findMatch? found)

/-- Requests that share a faithful cache are sound. -/
theorem requests_sound {geocoder : Geocoder K} {hierarchy : Hierarchy}
    (faithful : hierarchy.Faithful geocoder.store geocoder.maxChainLength)
    (requests : List (Request K)) :
    Sharing.Sound geocoder.store geocoder.maxChainLength
      ⟨hierarchy, requests.map geocoder.call⟩ := by
  constructor
  · exact faithful
  · intro call member
    obtain ⟨request, _, rfl⟩ := List.mem_map.mp member
    exact geocoder.call_sound request

/-- Alone, three steps of a request do what `resolveWith` does. -/
theorem run_call_alone (geocoder : Geocoder K) (hierarchy : Hierarchy) (request : Request K) :
    Sharing.run geocoder.store ⟨hierarchy, [geocoder.call request]⟩ [0, 0, 0] =
      ⟨(geocoder.resolveWith hierarchy request).2,
        [.finished (geocoder.resolveWith hierarchy request).1]⟩ := by
  unfold call resolveWith
  cases request.validate with
  | error failure => rfl
  | ok _ =>
      cases geocoder.findMatch? request.position with
      | none => rfl
      | some pair => exact Sharing.run_alone geocoder.store hierarchy _ _

theorem promise_call (geocoder : Geocoder K) (request : Request K) :
    (geocoder.call request).promise geocoder.store geocoder.maxChainLength =
      geocoder.resolve request := by
  unfold call resolve
  cases request.validate with
  | error failure => rfl
  | ok _ => cases geocoder.findMatch? request.position <;> rfl

/-- A request that is answered with a faithful cache gets the answer that is made from scratch,
and the cache is faithful afterwards. -/
theorem resolveWith_of_faithful {geocoder : Geocoder K} {hierarchy : Hierarchy}
    (faithful : hierarchy.Faithful geocoder.store geocoder.maxChainLength)
    (request : Request K) :
    (geocoder.resolveWith hierarchy request).1 = geocoder.resolve request ∧
      (geocoder.resolveWith hierarchy request).2.Faithful geocoder.store
        geocoder.maxChainLength := by
  obtain ⟨runSound, kept⟩ := Sharing.run_sound (requests_sound faithful [request]) [0, 0, 0]
  rw [List.map_singleton, run_call_alone] at runSound kept
  have same := List.singleton_inj.mp kept
  rw [promise_call] at same
  exact ⟨same, runSound.faithful⟩

/-- So does a request that is answered without a cache. -/
theorem resolveWith_hierarchy_zero (geocoder : Geocoder K) (request : Request K) :
    (geocoder.resolveWith (geocoder.hierarchy 0) request).1 = geocoder.resolve request :=
  (resolveWith_of_faithful (Hierarchy.Faithful.ofSize ..) request).1

theorem resolveAll_of_faithful {geocoder : Geocoder K} {hierarchy : Hierarchy}
    (faithful : hierarchy.Faithful geocoder.store geocoder.maxChainLength)
    (requests : List (Request K)) :
    geocoder.resolveAll hierarchy requests = requests.map geocoder.resolve := by
  induction requests generalizing hierarchy with
  | nil => rfl
  | cons request rest ih =>
      obtain ⟨same, after⟩ := resolveWith_of_faithful faithful request
      rw [List.map_cons, ← same, ← ih after]
      rfl

/-- No size of the cache is ever noticed.  Callers for chains of stored places return the
chains that are built from scratch, and requests the answers of a geocoder without a cache,
whatever the order of their steps; so do requests that are answered one after the other. -/
theorem cache_invisible (geocoder : Geocoder K) (cacheSize : Nat) :
    (∀ starts : List (Place K), (∀ start ∈ starts, start ∈ geocoder.store.toList) →
      ∀ caller start, starts[caller]? = some start →
        Sharing.Returns geocoder.store
          ⟨geocoder.hierarchy cacheSize, starts.map fun start => .asking start id⟩ caller
          (Chain.build geocoder.store start geocoder.maxChainLength)) ∧
      (∀ (requests : List (Request K)) caller request, requests[caller]? = some request →
        Sharing.Returns geocoder.store
          ⟨geocoder.hierarchy cacheSize, requests.map geocoder.call⟩ caller
          (geocoder.resolveWith (geocoder.hierarchy 0) request).1) ∧
      ∀ requests : List (Request K),
        geocoder.resolveAll (geocoder.hierarchy cacheSize) requests =
          requests.map fun request =>
            (geocoder.resolveWith (geocoder.hierarchy 0) request).1 := by
  have faithful : (geocoder.hierarchy cacheSize).Faithful geocoder.store
      geocoder.maxChainLength := Hierarchy.Faithful.ofSize ..
  simp only [resolveWith_hierarchy_zero]
  refine ⟨?_, ?_, resolveAll_of_faithful faithful⟩
  · intro starts members caller start found
    have sound := Sharing.starts_sound faithful starts members
    exact sound.returns (by rw [List.getElem?_map, found, Option.map_some])
  · intro requests caller request found
    have sound := requests_sound faithful requests
    rw [← promise_call]
    exact sound.returns (by rw [List.getElem?_map, found, Option.map_some])

/-- Two callers miss the chain of the house, the second puts it in again after that of the
street has pushed it out, and all three return what is built from scratch. -/
theorem cache_invisible_crossroads :
    ∃ house street, house ∈ crossroads.toList ∧ street ∈ crossroads.toList ∧
      3 ≤ [0, 1, 2, 0, 1, 0, 2, 2, 1].count 1 ∧
      (Sharing.run crossroads
          ⟨crossroadsGeocoder.hierarchy 1, [house, house, street].map fun start =>
            .asking start id⟩ [0, 1, 2, 0, 1, 0, 2, 2, 1]).calls[1]? =
        some (.finished (Chain.build crossroads house 32)) ∧
      Sharing.Returns crossroads
        ⟨crossroadsGeocoder.hierarchy 1, [atOrigin, atOrigin].map crossroadsGeocoder.call⟩ 1
        (crossroadsGeocoder.resolveWith (crossroadsGeocoder.hierarchy 0) atOrigin).1 := by
  obtain ⟨house, isFirst⟩ : ∃ house, crossroads.get? 0 = some house := ⟨_, rfl⟩
  obtain ⟨street, isSecond⟩ : ∃ street, crossroads.get? 1 = some street := ⟨_, rfl⟩
  have houseStored := Store.mem_of_get? isFirst
  have streetStored := Store.mem_of_get? isSecond
  obtain ⟨chains, answers, _⟩ := cache_invisible crossroadsGeocoder 1
  have stored : ∀ start ∈ [house, house, street], start ∈ crossroads.toList := by
    intro start member
    simp only [List.mem_cons, List.not_mem_nil, or_false] at member
    rcases member with rfl | rfl | rfl
    · exact houseStored
    · exact houseStored
    · exact streetStored
  have often : 3 ≤ [0, 1, 2, 0, 1, 0, 2, 2, 1].count 1 := by decide
  exact ⟨house, street, houseStored, streetStored, often,
    (chains [house, house, street] stored 1 house rfl _).2 often,
    answers [atOrigin, atOrigin] 1 atOrigin rfl⟩

end Gazetteer.Geocoder
