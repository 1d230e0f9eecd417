import Gazetteer.Proofs.Address.Phrases
import Gazetteer.Proofs.Store
import Mathlib.Data.List.Induction

/-!
# Display names that stutter

A part of a display name is left out where it repeats the part before it, so a display name
should never say a thing twice in a row.  It does so for house numbers alone: one that no road
follows is written without a look at the part before it.
-/

namespace Gazetteer.Address

variable {lines before after : List AddressLine} {number : AddressLine}

/-- No part repeats the one before it. -/
def StutterFree (parts : List String) : Prop :=
  parts.IsChain fun part next => part ≠ next

instance (parts : List String) : Decidable (StutterFree parts) :=
  inferInstanceAs (Decidable (parts.IsChain _))

/-- A house number that no road follows. -/
structure StandsAlone (number : AddressLine) (after : List AddressLine) : Prop where
  isNumber : number.isNumber = true
  noRoad : ∀ next ∈ after.head?, next.isRoad = false

theorem stutterFree_concat_iff {parts : List String} {part : String} :
    StutterFree (parts ++ [part]) ↔ StutterFree parts ∧ parts.getLast? ≠ some part := by
  rw [StutterFree, List.isChain_append]
  constructor
  · rintro ⟨free, -, differ⟩
    exact ⟨free, fun isLast => differ part isLast part rfl rfl⟩
  · rintro ⟨free, differ⟩
    refine ⟨free, List.isChain_singleton part, ?_⟩
    rintro last isLast next isNext rfl
    obtain rfl := Option.some.inj isNext
    exact differ isLast

/-- One more phrase makes parts stutter exactly if it stands alone and repeats the last part. -/
theorem stutterFree_write_concat_iff {front : List Phrase} {phrase : Phrase} :
    StutterFree (write (front ++ [phrase])) ↔
      StutterFree (write front) ∧
        (phrase.isAlone = true → (write front).getLast? ≠ some phrase.text) := by
  rw [write_concat]
  split
  · rename_i leftOut
    rw [List.append_nil, leftOut.1]
    simp
  · rename_i written
    rw [stutterFree_concat_iff]
    refine and_congr_right fun _ => ⟨fun differ _ => differ, fun alone repeats => ?_⟩
    cases isAlone : phrase.isAlone with
    | true => exact alone isAlone repeats
    | false => exact written ⟨isAlone, repeats⟩

theorem stutterFree_write_iff {phrases : List Phrase} :
    StutterFree (write phrases) ↔
      ∀ front phrase rest, phrases = front ++ phrase :: rest → phrase.isAlone = true →
        (write front).getLast? ≠ some phrase.text := by
  induction phrases using List.reverseRecOn with
  | nil => simp [write, writeFrom, StutterFree]
  | append_singleton phrases last ih =>
      rw [stutterFree_write_concat_iff, ih]
      constructor
      · rintro ⟨within, atEnd⟩ front phrase rest split
        -- the phrase is the last one if nothing is behind it
        cases rest using List.reverseRecOn with
        | nil =>
            obtain ⟨rfl, same⟩ := List.append_inj' split rfl
            obtain rfl := List.singleton_inj.mp same
            exact atEnd
        | append_singleton rest other =>
            rw [← List.cons_append, ← List.append_assoc] at split
            exact within front phrase rest (List.append_inj' split rfl).1
      · intro all
        refine ⟨fun front phrase rest split => ?_, all phrases last [] rfl⟩
        exact all front phrase (rest ++ [last]) (by rw [split]; simp)

/-! ## House numbers that stand alone -/

/-- The lines in front of one that counts make up parts by themselves. -/
theorem parts_of_counted_eq (split : counted lines = before ++ after) :
    parts before = write (phrases before) := by
  refine parts_eq_write (fun line member => ?_) ?_
  · have counts : line ∈ counted lines := by
      rw [split]
      exact List.mem_append_left after member
    exact isShown_of_mem_counted counts
  · have apart := numbersApart_giveWay (shown lines)
    rw [← counted, split] at apart
    exact apart.left_of_append

/-- A phrase stands alone just if it is that of a house number without a road. -/
theorem exists_standsAlone_iff {front : List Phrase} {text : String} :
    (∃ rest, phrases lines = front ++ ⟨text, true⟩ :: rest) ↔
      ∃ before number after, lines = before ++ number :: after ∧ StandsAlone number after ∧
        front = phrases before ∧ text = number.text := by
  constructor
  · rintro ⟨rest, split⟩
    obtain ⟨before, number, after, rfl, length, same⟩ := exists_of_phrasesFrom_eq split
    obtain ⟨isNumber, noRoad⟩ := isAlone_phrase_iff.mp (congrArg Phrase.isAlone same).symm
    rw [phrase_of_alone isNumber noRoad] at same
    rw [phrases, phrasesFrom_append none before (AddressLine.isRoad_of_isNumber isNumber)] at split
    refine ⟨before, number, after, rfl, ⟨isNumber, noRoad⟩, ?_, congrArg Phrase.text same⟩
    exact (List.append_inj split (by rw [length_phrasesFrom, length])).1.symm
  · rintro ⟨before, number, after, rfl, ⟨isNumber, noRoad⟩, rfl, rfl⟩
    refine ⟨phrasesFrom (some number) after, ?_⟩
    rw [phrases, phrasesFrom_append none before (AddressLine.isRoad_of_isNumber isNumber),
      phrasesFrom, phrase_of_alone isNumber noRoad, phrases]

/-- The parts of a display name do not stutter, unless a house number that no road follows
repeats the part that the lines before it end with. -/
theorem stutterFree_parts_iff (lines : List AddressLine) :
    StutterFree (parts lines) ↔
      ∀ before number after, counted lines = before ++ number :: after →
        StandsAlone number after → (parts before).getLast? ≠ some number.text := by
  rw [parts_eq_write_counted, stutterFree_write_iff]
  constructor
  · intro free before number after split alone
    rw [parts_of_counted_eq split]
    obtain ⟨rest, said⟩ :=
      exists_standsAlone_iff.mpr ⟨before, number, after, split, alone, rfl, rfl⟩
    exact free (phrases before) ⟨number.text, true⟩ rest said rfl
  · rintro free front ⟨text, isAlone⟩ rest said rfl
    obtain ⟨before, number, after, split, alone, rfl, rfl⟩ := exists_standsAlone_iff.mp ⟨rest, said⟩
    rw [← parts_of_counted_eq split]
    exact free before number after split alone

/-- A café that is called by its house number, and a suburb that it is in. -/
def cafeSeven : Store Float :=
  ⟨#[{ Place.pin 0 30 [1] with
      category := "amenity"
      placeType := "cafe"
      names := .ofList [("default", "7")]
      address := .ofList [("housenumber", "7")] },
    { Place.pin 1 20 [] with names := .ofList [("default", "Aston")] }], rfl⟩

/-- Its display name says the number twice. -/
theorem not_stutterFree_cafeSeven :
    parts (assemble cafeSeven [⟨0, 30⟩, ⟨1, 20⟩] []).lines = ["7", "7", "Aston"] ∧
      ¬ StutterFree (parts (assemble cafeSeven [⟨0, 30⟩, ⟨1, 20⟩] []).lines) := by
  have said : parts (assemble cafeSeven [⟨0, 30⟩, ⟨1, 20⟩] []).lines = ["7", "7", "Aston"] := by
    decide +kernel
  refine ⟨said, ?_⟩
  rw [said]
  decide

end Gazetteer.Address
