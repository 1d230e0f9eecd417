import Gazetteer.Proofs.Address.Phrases
import Mathlib.Data.List.Induction
import Mathlib.Order.Fin.Basic
import Mathlib.Order.Hom.Basic

/-!
# Every name is in the display name

The display name says what each line says, in the order of the lines.  The part that says it is
the last one that the phrases up to it make up: the phrase itself, or the part that it repeats.
With every phrase the parts grow by one at most, so none is left over.

For this no house number may give way to another, which would be lost.
-/

namespace Gazetteer.Address

/-! ## The part of a phrase -/

section Positions

variable {phrases front : List Phrase} {phrase next : Phrase} {i k : Nat}

theorem write_prefix (isPrefix : front <+: phrases) : write front <+: write phrases := by
  obtain ⟨others, rfl⟩ := isPrefix
  rw [write_append]
  exact List.prefix_append ..

theorem length_write_concat_le (front : List Phrase) (phrase : Phrase) :
    (write (front ++ [phrase])).length ≤ (write front).length + 1 := by
  rw [write_concat, List.length_append]
  split <;> simp

theorem take_succ_of_getElem? (isAt : phrases[i]? = some phrase) :
    phrases.take (i + 1) = phrases.take i ++ [phrase] := by
  rw [List.take_add_one, isAt, Option.toList_some]

/-- The position of the part that says what the phrase at a position says. -/
def position (phrases : List Phrase) (i : Nat) : Nat :=
  (write (phrases.take (i + 1))).length - 1

theorem position_mono (phrases : List Phrase) : Monotone (position phrases) := by
  intro i j le
  have isPrefix := write_prefix (phrases.take_prefix_take_left (Nat.succ_le_succ le))
  exact Nat.sub_le_sub_right isPrefix.length_le 1

theorem getElem?_position (isAt : phrases[i]? = some phrase) :
    (write phrases)[position phrases i]? = some phrase.text := by
  have isLast := getLast?_write_concat (phrases.take i) phrase
  rw [← take_succ_of_getElem? isAt, List.getLast?_eq_getElem?] at isLast
  obtain ⟨others, whole⟩ := write_prefix (phrases.take_prefix (i + 1))
  rw [← whole]
  exact (List.getElem?_append_left (List.getElem?_eq_some_iff.mp isLast).1).trans isLast

/-- Every part says what some phrase says. -/
theorem exists_position_eq (bound : k < (write phrases).length) :
    ∃ i, i < phrases.length ∧ position phrases i = k := by
  induction phrases using List.reverseRecOn with
  | nil => contradiction
  | append_singleton phrases last ih =>
      by_cases within : k < (write phrases).length
      · obtain ⟨i, less, same⟩ := ih within
        refine ⟨i, less.trans_le (List.prefix_append phrases [last]).length_le, ?_⟩
        rw [position, List.take_append_of_le_length less, ← same, position]
      · -- one phrase more makes one part more at most, so this is the part of the last phrase
        have grown := length_write_concat_le phrases last
        refine ⟨phrases.length, by simp, ?_⟩
        rw [position, List.take_of_length_le (by simp)]
        omega

/-- A phrase that repeats the one before it, and does not stand alone, has its part. -/
theorem position_succ (isAt : phrases[i]? = some phrase) (isNext : phrases[i + 1]? = some next)
    (same : phrase.text = next.text) (joined : next.isAlone = false) :
    position phrases (i + 1) = position phrases i := by
  have isLast := getLast?_write_concat (phrases.take i) phrase
  rw [← take_succ_of_getElem? isAt, same] at isLast
  rw [position, take_succ_of_getElem? isNext, write_concat, if_pos ⟨joined, isLast⟩,
    List.append_nil, position]

end Positions

/-! ## The part of a line -/

variable {lines : List AddressLine}

/-- What a line says at a position, between the lines beside it. -/
def phraseAt (before : Option AddressLine) (lines : List AddressLine) (i : Nat)
    (line : AddressLine) : Phrase :=
  phrase (if i = 0 then before else lines[i - 1]?) line lines[i + 1]?

theorem getElem?_phrasesFrom (before : Option AddressLine) {i : Nat} {line : AddressLine}
    (isAt : lines[i]? = some line) :
    (phrasesFrom before lines)[i]? = some (phraseAt before lines i line) := by
  induction lines generalizing before i with
  | nil => contradiction
  | cons first rest ih =>
      cases i with
      | zero =>
          obtain rfl := Option.some.inj isAt
          cases rest <;> rfl
      | succ i =>
          rw [phrasesFrom, List.getElem?_cons_succ, ih (some first) isAt]
          cases i <;> rfl

/-- Where no house number gives way to another, the part of a line says what the line says. -/
theorem getElem?_parts (apart : NumbersApart (shown lines)) {i : Nat} {line : AddressLine}
    (isAt : (shown lines)[i]? = some line) :
    (parts lines)[position (phrases (shown lines)) i]? =
      some (phraseAt none (shown lines) i line).text := by
  rw [parts_eq_write_counted, counted, giveWay_of_numbersApart apart]
  exact getElem?_position (getElem?_phrasesFrom none isAt)

/-- Every part is that of a line. -/
theorem exists_position_of_parts (apart : NumbersApart (shown lines)) {k : Nat}
    (bound : k < (parts lines).length) :
    ∃ i, i < (shown lines).length ∧ position (phrases (shown lines)) i = k := by
  rw [parts_eq_write_counted, counted, giveWay_of_numbersApart apart] at bound
  obtain ⟨i, less, same⟩ := exists_position_eq bound
  rw [phrases, length_phrasesFrom] at less
  exact ⟨i, less, same⟩

/-- At a position there is a house number with a road behind it. -/
def IsOnRoad (lines : List AddressLine) (i : Nat) : Prop :=
  ∃ number ∈ lines[i]?, ∃ road ∈ lines[i + 1]?, number.isNumber = true ∧ road.isRoad = true

/-- How the lines that are shown are spread over the parts of the display name.  A house number
and the road behind it share a part, and any other line has its name for its part. -/
structure IsSpread (lines : List AddressLine)
    (place : Fin (shown lines).length →o Fin (parts lines).length) : Prop where
  onto : Function.Surjective place
  together : ∀ number next : Fin (shown lines).length, next.val = number.val + 1 →
    (shown lines)[number].isNumber = true →
    ((place number = place next ∧
        (parts lines)[place number] = (shown lines)[number].onRoad (shown lines)[next]) ↔
      (shown lines)[next].isRoad = true)
  apart : ∀ line : Fin (shown lines).length, ¬ IsOnRoad (shown lines) line →
    (∀ i, line.val = i + 1 → ¬ IsOnRoad (shown lines) i) →
    (parts lines)[place line] = (shown lines)[line].text

theorem text_ne_onRoad (number road : AddressLine) : number.text ≠ number.onRoad road := by
  intro same
  have lengths := congrArg String.length same
  rw [AddressLine.onRoad, String.length_append, String.length_append] at lengths
  have space : " ".length = 1 := rfl
  omega

/-- A house number says the road with it just if it is followed by a road. -/
theorem text_phraseAt_eq_onRoad_iff {before : Option AddressLine} {i : Nat}
    {number next : AddressLine} (isNext : lines[i + 1]? = some next)
    (isNumber : number.isNumber = true) :
    (phraseAt before lines i number).text = number.onRoad next ↔ next.isRoad = true := by
  rw [phraseAt, isNext]
  constructor
  · intro joined
    by_contra notRoad
    rw [phrase_of_alone isNumber (by simpa using notRoad)] at joined
    exact text_ne_onRoad _ _ joined
  · intro isRoad
    rw [phrase_of_followed isNumber isRoad]

/-- A line that is neither a house number on a road nor that road says its name. -/
theorem text_phraseAt_of_apart {i : Nat} {line : AddressLine} (isAt : lines[i]? = some line)
    (notNumber : ¬ IsOnRoad lines i) (notRoad : ∀ k, i = k + 1 → ¬ IsOnRoad lines k) :
    (phraseAt none lines i line).text = line.text := by
  rw [phraseAt]
  by_cases isNumber : line.isNumber = true
  · rw [phrase_of_alone isNumber]
    intro road isNext
    by_contra isRoad
    exact notNumber ⟨line, isAt, road, isNext, isNumber, Bool.not_eq_false _ ▸ isRoad⟩
  · rw [phrase_of_plain (Bool.eq_false_iff.mpr isNumber)]
    intro isRoad number isBefore
    by_contra isNumber
    cases i with
    | zero => contradiction
    | succ k =>
        refine notRoad k rfl ⟨number, isBefore, line, isAt, ?_, isRoad⟩
        exact Bool.not_eq_false _ ▸ isNumber

/-- A house number has its part in common with the road behind it. -/
theorem position_of_road {i : Nat} {number road : AddressLine} (isAt : lines[i]? = some number)
    (isNext : lines[i + 1]? = some road) (isNumber : number.isNumber = true)
    (isRoad : road.isRoad = true) :
    position (phrases lines) (i + 1) = position (phrases lines) i := by
  have here := getElem?_phrasesFrom none isAt
  have behind := getElem?_phrasesFrom none isNext
  rw [phraseAt, isNext, phrase_of_followed isNumber isRoad] at here
  rw [phraseAt, if_neg (Nat.succ_ne_zero i), Nat.add_sub_cancel, isAt,
    phrase_of_road isNumber isRoad] at behind
  exact position_succ here behind rfl rfl

/-- Where no house number gives way to another, the lines that are shown are spread over the
parts of the display name. -/
theorem exists_isSpread (apart : NumbersApart (shown lines)) : ∃ place, IsSpread lines place := by
  have isAt (i : Fin (shown lines).length) : (shown lines)[i.val]? = some (shown lines)[i] :=
    List.getElem?_eq_getElem i.isLt
  have said i := List.getElem?_eq_some_iff.mp (getElem?_parts apart (isAt i))
  let place : Fin (shown lines).length →o Fin (parts lines).length :=
    ⟨fun i => ⟨position (phrases (shown lines)) i, (said i).1⟩, fun _ _ le => position_mono _ le⟩
  have part i : (parts lines)[place i] = (phraseAt none (shown lines) i (shown lines)[i]).text :=
    (said i).2
  refine ⟨place, fun k => ?_, fun number next follows isNumber => ?_,
    fun line notNumber notRoad => ?_⟩
  · obtain ⟨i, less, same⟩ := exists_position_of_parts apart k.isLt
    exact ⟨⟨i, less⟩, Fin.ext same⟩
  · have isNext : (shown lines)[number.val + 1]? = some (shown lines)[next] := follows ▸ isAt next
    rw [part, text_phraseAt_eq_onRoad_iff isNext isNumber, and_iff_right_iff_imp]
    intro isRoad
    have same := position_of_road (isAt number) isNext isNumber isRoad
    rw [← follows] at same
    exact Fin.ext same.symm
  · rw [part, text_phraseAt_of_apart (isAt line) notNumber notRoad]

theorem numbersApart_of_countP (single : lines.countP AddressLine.isNumber ≤ 1) :
    NumbersApart lines := by
  induction lines with
  | nil => exact List.IsChain.nil
  | cons line rest ih =>
      rw [List.countP_cons] at single
      refine List.isChain_cons.mpr ⟨?_, ih (by omega)⟩
      rintro next isNext ⟨isNumber, isNumberToo⟩
      have counted : 0 < rest.countP AddressLine.isNumber :=
        List.countP_pos_iff.mpr ⟨next, List.mem_of_head? isNext, isNumberToo⟩
      rw [if_pos isNumber] at single
      omega

/-- With at most one house number that is not blank, every line that is shown has its part in
the display name, in the order of the lines, and every part is that of a line. -/
theorem exists_isSpread_of_single (lines : List AddressLine)
    (single : lines.countP (fun line => line.isNumber && !line.text.isEmpty) ≤ 1) :
    ∃ place, IsSpread lines place := by
  apply exists_isSpread
  apply numbersApart_of_countP
  rw [shown, List.countP_filter]
  refine (List.countP_mono_left ?_).trans single
  intro line _ both
  rw [Bool.and_eq_true] at both ⊢
  refine ⟨both.1, ?_⟩
  have isShown := both.2
  rw [AddressLine.isShown, Bool.not_eq_true', Bool.or_eq_false_iff] at isShown
  rw [isShown.1, Bool.not_false]

/-- A pub with a number, on a road behind lines that are not shown, in a suburb that has the
name of its city. -/
def plough : List AddressLine :=
  [.ofTag "pub" "The Plough " 30, .ofTag "house_number" "137" 30, .ofTag "suburb" " " 20,
    .ofTag "country_code" "gb" 4, .ofTag "road" "Pilkington Avenue" 26,
    .ofTag "suburb" "Wylde Green" 20, .ofTag "city" "Wylde Green" 16]

theorem exists_isSpread_of_single_plough :
    plough.countP (fun line => line.isNumber && !line.text.isEmpty) ≤ 1 ∧
      (shown plough).length = 5 ∧
      parts plough = ["The Plough", "137 Pilkington Avenue", "Wylde Green"] ∧
      ∃ place, IsSpread plough place :=
  ⟨by decide +kernel, by decide +kernel, by decide +kernel,
    exists_isSpread_of_single plough (by decide +kernel)⟩

end Gazetteer.Address
