import Gazetteer.Osm.Element

/-!
# Records of positions

There are more nodes than fit into memory, so their positions are kept as bytes.  The key of a
node is its number, its record the bits of its longitude and then those of its latitude: eight
bytes each, the most significant one first.
-/

namespace Gazetteer.Osm

/-- The last bytes of a number, the most significant one first. -/
def bytesOf : (count number : Nat) → List UInt8
  | 0, _ => []
  | count + 1, number => bytesOf count (number / 256) ++ [UInt8.ofNat number]

/-- The number with the given bytes, the most significant one first. -/
def numberOf (bytes : List UInt8) : Nat :=
  bytes.foldl (fun number byte => number * 256 + byte.toNat) 0

/-- The eight bytes of a word. -/
def wordBytes (word : UInt64) : List UInt8 :=
  bytesOf 8 word.toNat

/-- The word with the given bytes; none unless there are eight of them. -/
def wordOf? (bytes : List UInt8) : Option UInt64 :=
  if bytes.length = 8 then some (UInt64.ofNat (numberOf bytes)) else none

/-- The key under which the position of a node is kept. -/
def recordKey (node : ElementId) : List UInt8 :=
  wordBytes node.toUInt64

/-- A position as bytes. -/
def recordOf (position : Coord Float) : List UInt8 :=
  wordBytes position.x.toBits ++ wordBytes position.y.toBits

/-- The position that bytes stand for; none if there are too few of them. -/
def positionOf? (bytes : List UInt8) : Option (Coord Float) := do
  let x ← wordOf? (bytes.take 8)
  let y ← wordOf? ((bytes.drop 8).take 8)
  some ⟨Float.ofBits x, Float.ofBits y⟩

end Gazetteer.Osm
