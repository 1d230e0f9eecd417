import Mathlib
import Gazetteer.Osm.Record

/-!
# Reading records

A position that is kept as bytes is read back bit for bit, and no two nodes share a key.

That a number is read back from its bits is `Float.ofBits_toBits`, a lemma of Batteries that
only the whole of Mathlib brings in, and none of its modules.
-/

namespace Gazetteer.Osm

@[simp] theorem length_bytesOf (count number : Nat) : (bytesOf count number).length = count := by
  induction count generalizing number with
  | zero => rfl
  | succ count ih => rw [bytesOf, List.length_append, ih, List.length_singleton]

theorem numberOf_concat (bytes : List UInt8) (last : UInt8) :
    numberOf (bytes ++ [last]) = numberOf bytes * 256 + last.toNat := by
  rw [numberOf, List.foldl_append]
  rfl

/-- The last bytes of a number tell what it leaves over whole multiples of their range. -/
theorem numberOf_bytesOf (count number : Nat) :
    numberOf (bytesOf count number) = number % 256 ^ count := by
  induction count generalizing number with
  | zero => exact (Nat.mod_one number).symm
  | succ count ih =>
      calc numberOf (bytesOf (count + 1) number)
          = numberOf (bytesOf count (number / 256)) * 256 + (UInt8.ofNat number).toNat :=
            numberOf_concat ..
        _ = number / 256 % 256 ^ count * 256 + number % 256 := by
            rw [ih, UInt8.toNat_ofNat']
        _ = number % 256 ^ (count + 1) := by
            rw [Nat.pow_succ', Nat.mod_mul]
            omega

@[simp] theorem length_wordBytes (word : UInt64) : (wordBytes word).length = 8 :=
  length_bytesOf ..

@[simp] theorem wordOf?_wordBytes (word : UInt64) : wordOf? (wordBytes word) = some word := by
  have small : word.toNat < 256 ^ 8 := word.toNat_lt
  rw [wordOf?, if_pos (length_wordBytes word), wordBytes, numberOf_bytesOf,
    Nat.mod_eq_of_lt small, UInt64.ofNat_toNat]

theorem wordBytes_injective : Function.Injective wordBytes := by
  intro first second same
  apply Option.some.inj
  rw [← wordOf?_wordBytes first, ← wordOf?_wordBytes second, same]

/-- Nodes are told apart by their keys. -/
theorem recordKey_injective : Function.Injective recordKey := by
  intro first second same
  exact congrArg Int64.ofUInt64 (wordBytes_injective same)

/-- Every position is read back from its record. -/
@[simp] theorem positionOf?_recordOf (position : Coord Float) :
    positionOf? (recordOf position) = some position := by
  have first : (recordOf position).take 8 = wordBytes position.x.toBits :=
    List.take_left' (length_wordBytes _)
  have second : ((recordOf position).drop 8).take 8 = wordBytes position.y.toBits := by
    rw [recordOf, List.drop_left' (length_wordBytes _)]
    exact List.take_of_length_le (Nat.le_of_eq (length_wordBytes _))
  simp only [positionOf?, first, second, wordOf?_wordBytes, Option.bind_eq_bind, Option.bind_some,
    Float.ofBits_toBits]

end Gazetteer.Osm
