import Gazetteer.Hierarchy.Chain

/-!
# The cache of chains

A bounded memory of chains by place.  When it is full, the chain that was put in first is
the first to go; looking a chain up changes nothing.  A lookup and an insertion are
separate steps, because several callers may share one cache.
-/

namespace Gazetteer

/-- Chains by place, with the order in which they were put in, oldest first. -/
structure ChainCache where
  capacity : Nat
  chains : List (PlaceId × Chain)
  order : List PlaceId
deriving DecidableEq, Repr

namespace ChainCache

/-- A cache without chains. -/
def empty (capacity : Nat) : ChainCache :=
  ⟨capacity, [], []⟩

/-- The number of chains. -/
def size (cache : ChainCache) : Nat :=
  cache.chains.length

/-- The chain under a key. -/
def get? (cache : ChainCache) (key : PlaceId) : Option Chain :=
  (cache.chains.find? fun entry => entry.1 == key).map Prod.snd

/-- Take chains out, oldest first, until fewer than `capacity` are left. -/
def makeRoom (capacity : Nat) :
    (order : List PlaceId) → (chains : List (PlaceId × Chain)) →
      List PlaceId × List (PlaceId × Chain)
  | [], chains => ([], chains)
  | oldest :: order, chains =>
    if capacity ≤ chains.length then
      makeRoom capacity order (chains.filter fun entry => entry.1 != oldest)
    else (oldest :: order, chains)

/-- Put a chain under a key.  A key that is there already keeps its chain and its age. -/
def insert (cache : ChainCache) (key : PlaceId) (chain : Chain) : ChainCache :=
  if cache.capacity = 0 ∨ (cache.get? key).isSome then cache
  else
    let room := makeRoom cache.capacity cache.order cache.chains
    ⟨cache.capacity, (key, chain) :: room.2, room.1 ++ [key]⟩

end ChainCache

/-- How chains are found: the length limit, and a cache unless caching is off. -/
structure Hierarchy where
  limit : Nat
  cache : Option ChainCache
deriving DecidableEq, Repr

namespace Hierarchy

/-- A size of zero turns caching off. -/
def ofSize (limit cacheSize : Nat) : Hierarchy :=
  ⟨limit, if cacheSize = 0 then none else some (ChainCache.empty cacheSize)⟩

/-- The chain of a place, from the cache if it is there, and the cache afterwards. -/
def resolve {K : Type} (hierarchy : Hierarchy) (store : Store K) (start : Place K) :
    Chain × Hierarchy :=
  match hierarchy.cache.bind fun cache => cache.get? start.id with
  | some chain => (chain, hierarchy)
  | none =>
    let chain := Chain.build store start hierarchy.limit
    (chain, { hierarchy with
      cache := hierarchy.cache.map fun cache => cache.insert start.id chain })

end Hierarchy

end Gazetteer
