import Gazetteer.Address
import Mathlib.Data.List.Chain

/-!
# The phrases of a display name

A line that counts for the display name says one thing there: its name, or, for a house number
and the road behind it, the two together.  What it says depends on the lines beside it and on
nothing else.  The parts of the display name are these phrases, one after the other, less those
that repeat the part before them.  Only the phrase of a house number that no road follows is
written without a look at that part.
-/

namespace Gazetteer

namespace AddressLine

/-- The name of a line, less the blank space around it. -/
def text (line : AddressLine) : String :=
  Text.trim line.name

/-- Whether a line is shown in the display name. -/
def isShown (line : AddressLine) : Bool :=
  !(line.text.isEmpty || line.kind == "country_code")

def isNumber (line : AddressLine) : Bool :=
  line.kind == "house_number"

def isRoad (line : AddressLine) : Bool :=
  line.kind == "road"

/-- A house number in front of its road. -/
def onRoad (number road : AddressLine) : String :=
  number.text ++ " " ++ road.text

theorem isRoad_of_isNumber {line : AddressLine} (isNumber : line.isNumber = true) :
    line.isRoad = false := by
  rw [AddressLine.isNumber, beq_iff_eq] at isNumber
  rw [isRoad, isNumber]
  decide

theorem not_isNumber_of_isRoad {line : AddressLine} (isRoad : line.isRoad = true) :
    ¬ line.isNumber = true :=
  fun isNumber => Bool.eq_false_iff.mp (isRoad_of_isNumber isNumber) isRoad

end AddressLine

namespace Address

variable {line : AddressLine} {lines rest : List AddressLine}

/-! ## The lines that count -/

/-- The lines that are shown in the display name. -/
def shown (lines : List AddressLine) : List AddressLine :=
  lines.filter AddressLine.isShown

/-- A house number gives way to a house number that follows it. -/
def giveWay : List AddressLine → List AddressLine
  | [] => []
  | line :: rest =>
    if line.isNumber && rest.head?.any AddressLine.isNumber then giveWay rest
    else line :: giveWay rest

/-- The lines that count for the display name: those that are shown, less every house number
that gives way to another. -/
def counted (lines : List AddressLine) : List AddressLine :=
  giveWay (shown lines)

/-- No house number follows another. -/
def NumbersApart (lines : List AddressLine) : Prop :=
  lines.IsChain fun line next => ¬ (line.isNumber = true ∧ next.isNumber = true)

theorem giveWay_subset (lines : List AddressLine) : giveWay lines ⊆ lines := by
  fun_induction giveWay lines with
  | case1 => exact List.Subset.refl _
  | case2 line rest _ ih => exact List.subset_cons_of_subset line ih
  | case3 line rest _ ih => exact List.cons_subset_cons line ih

theorem isNumber_head?_giveWay (lines : List AddressLine) :
    (giveWay lines).head?.any AddressLine.isNumber = lines.head?.any AddressLine.isNumber := by
  fun_induction giveWay lines with
  | case1 => rfl
  | case2 line rest both ih =>
      obtain ⟨isNumber, followed⟩ := Bool.and_eq_true_iff.mp both
      rw [ih, followed]
      exact isNumber.symm
  | case3 => rfl

theorem numbersApart_giveWay (lines : List AddressLine) : NumbersApart (giveWay lines) := by
  fun_induction giveWay lines with
  | case1 => exact List.IsChain.nil
  | case2 line rest _ ih => exact ih
  | case3 line rest notBoth ih =>
      refine List.isChain_cons.mpr ⟨?_, ih⟩
      rintro next isNext ⟨isNumber, isNumberToo⟩
      have followed := isNumber_head?_giveWay rest
      rw [isNext, Option.any_some, isNumberToo] at followed
      exact notBoth (Bool.and_eq_true_iff.mpr ⟨isNumber, followed.symm⟩)

theorem giveWay_of_numbersApart (apart : NumbersApart lines) : giveWay lines = lines := by
  induction lines with
  | nil => rfl
  | cons line rest ih =>
      obtain ⟨here, apart⟩ := List.isChain_cons.mp apart
      have notBoth : ¬ (line.isNumber && rest.head?.any AddressLine.isNumber) = true := by
        simp only [Bool.and_eq_true, Option.any_eq_true]
        rintro ⟨isNumber, next, isNext, isNumberToo⟩
        exact here next isNext ⟨isNumber, isNumberToo⟩
      rw [giveWay, if_neg notBoth, ih apart]

/-! ## What a line says -/

/-- What a line says in the display name. -/
structure Phrase where
  text : String
  /-- A house number without a road.  It is written even where it repeats the part before. -/
  isAlone : Bool
deriving DecidableEq

/-- What a line says between two others. -/
def phrase (before : Option AddressLine) (line : AddressLine) (next : Option AddressLine) :
    Phrase :=
  if line.isNumber then
    match next.filter AddressLine.isRoad with
    | some road => ⟨line.onRoad road, false⟩
    | none => ⟨line.text, true⟩
  else if line.isRoad then
    match before.filter AddressLine.isNumber with
    | some number => ⟨number.onRoad line, false⟩
    | none => ⟨line.text, false⟩
  else ⟨line.text, false⟩

/-- What lines say behind another. -/
def phrasesFrom (before : Option AddressLine) : List AddressLine → List Phrase
  | [] => []
  | line :: rest => phrase before line rest.head? :: phrasesFrom (some line) rest

/-- What lines say. -/
def phrases (lines : List AddressLine) : List Phrase :=
  phrasesFrom none lines

/-- The parts that phrases make up behind the part `last`. -/
def writeFrom (last : Option String) : List Phrase → List String
  | [] => []
  | phrase :: rest =>
    if phrase.isAlone = false ∧ last = some phrase.text then writeFrom last rest
    else phrase.text :: writeFrom (some phrase.text) rest

/-- The parts that phrases make up. -/
def write (phrases : List Phrase) : List String :=
  writeFrom none phrases

theorem phrase_of_alone {before next : Option AddressLine} (isNumber : line.isNumber = true)
    (alone : ∀ road ∈ next, road.isRoad = false) :
    phrase before line next = ⟨line.text, true⟩ := by
  have noRoad : next.filter AddressLine.isRoad = none := by
    rw [Option.filter_eq_none_iff]
    exact fun road isNext => Bool.eq_false_iff.mp (alone road isNext)
  rw [phrase, if_pos isNumber, noRoad]

theorem phrase_of_followed {before : Option AddressLine} {road : AddressLine}
    (isNumber : line.isNumber = true) (isRoad : road.isRoad = true) :
    phrase before line (some road) = ⟨line.onRoad road, false⟩ := by
  rw [phrase, if_pos isNumber, Option.filter_some_pos isRoad]

theorem phrase_of_road {number : AddressLine} {next : Option AddressLine}
    (isNumber : number.isNumber = true) (isRoad : line.isRoad = true) :
    phrase (some number) line next = ⟨number.onRoad line, false⟩ := by
  rw [phrase, if_neg (AddressLine.not_isNumber_of_isRoad isRoad), if_pos isRoad,
    Option.filter_some_pos isNumber]

theorem phrase_of_plain {before next : Option AddressLine} (plain : line.isNumber = false)
    (notBehind : line.isRoad = true → ∀ number ∈ before, number.isNumber = false) :
    phrase before line next = ⟨line.text, false⟩ := by
  rw [phrase, if_neg (Bool.eq_false_iff.mp plain)]
  split
  · rename_i isRoad
    have noNumber : before.filter AddressLine.isNumber = none := by
      rw [Option.filter_eq_none_iff]
      exact fun number isBefore => Bool.eq_false_iff.mp (notBehind isRoad number isBefore)
    rw [noNumber]
  · rfl

/-- The phrase of a house number stands alone unless a road follows, and no other phrase does. -/
theorem isAlone_phrase_iff {before next : Option AddressLine} :
    (phrase before line next).isAlone = true ↔
      line.isNumber = true ∧ ∀ road ∈ next, road.isRoad = false := by
  by_cases isNumber : line.isNumber = true
  · rw [and_iff_right isNumber]
    by_cases alone : ∀ road ∈ next, road.isRoad = false
    · rw [phrase_of_alone isNumber alone]
      exact iff_of_true rfl alone
    · refine iff_of_false ?_ alone
      push Not at alone
      obtain ⟨road, isNext, isRoad⟩ := alone
      obtain rfl := Option.mem_def.mp isNext
      rw [phrase_of_followed isNumber (Bool.not_eq_false _ ▸ isRoad)]
      simp
  · refine iff_of_false ?_ fun both => isNumber both.1
    rw [phrase, if_neg isNumber]
    split
    · split <;> simp
    · simp

theorem length_phrasesFrom (before : Option AddressLine) (lines : List AddressLine) :
    (phrasesFrom before lines).length = lines.length := by
  induction lines generalizing before with
  | nil => rfl
  | cons line rest ih => rw [phrasesFrom, List.length_cons, List.length_cons, ih]

/-- Whether a road comes next is all that a line needs to know of what comes next. -/
theorem phrase_congr {before next other : Option AddressLine}
    (same : next.filter AddressLine.isRoad = other.filter AddressLine.isRoad) :
    phrase before line next = phrase before line other := by
  rw [phrase, same, phrase]

/-- Where no road follows, lines say the same as without what follows. -/
theorem phrasesFrom_append (before : Option AddressLine) (front : List AddressLine)
    (notRoad : line.isRoad = false) :
    phrasesFrom before (front ++ line :: rest) =
      phrasesFrom before front ++ phrasesFrom (front.getLast?.or before) (line :: rest) := by
  induction front generalizing before with
  | nil => rfl
  | cons first front ih =>
      have alike : phrase before first (front ++ line :: rest).head? =
          phrase before first front.head? := by
        apply phrase_congr
        cases front with
        | nil => exact Option.filter_some_neg notRoad
        | cons => rfl
      rw [List.cons_append, phrasesFrom, phrasesFrom, alike, ih, List.cons_append,
        List.getLast?_cons, Option.some_or]
      cases front.getLast? <;> rfl

/-- What lines say is said by one of them after the other. -/
theorem exists_of_phrasesFrom_eq {before : Option AddressLine} {front others : List Phrase}
    {said : Phrase} (split : phrasesFrom before lines = front ++ said :: others) :
    ∃ lead line rest, lines = lead ++ line :: rest ∧ lead.length = front.length ∧
      said = phrase (lead.getLast?.or before) line rest.head? := by
  induction lines generalizing before front with
  | nil => simp [phrasesFrom] at split
  | cons first rest ih =>
      cases front with
      | nil =>
          obtain ⟨same, _⟩ := List.cons.inj split
          exact ⟨[], first, rest, rfl, rfl, same.symm⟩
      | cons next front =>
          obtain ⟨_, later⟩ := List.cons.inj split
          obtain ⟨lead, line, behind, whole, length, same⟩ := ih later
          refine ⟨first :: lead, line, behind, by rw [whole, List.cons_append], by simp [length],
            ?_⟩
          rw [same, List.getLast?_cons, Option.some_or]
          cases lead.getLast? <;> rfl

/-! ## Parts are phrases -/

section Steps

variable {last pending : Option String}

theorem partsFrom_hidden (hidden : line.isShown = false) :
    partsFrom last pending (line :: rest) = partsFrom last pending rest := by
  rw [AddressLine.isShown, Bool.not_eq_false'] at hidden
  rw [partsFrom.eq_def]
  exact if_pos hidden

variable (isShown : line.isShown = true)
include isShown

theorem partsFrom_number (isNumber : line.isNumber = true) :
    partsFrom last pending (line :: rest) = partsFrom last (some line.text) rest := by
  rw [AddressLine.isShown, Bool.not_eq_true'] at isShown
  rw [partsFrom.eq_def]
  exact (if_neg (Bool.eq_false_iff.mp isShown)).trans (if_pos isNumber)

theorem partsFrom_plain (plain : line.isNumber = false) :
    partsFrom last none (line :: rest) =
      append last line.text fun last => partsFrom last none rest := by
  rw [AddressLine.isShown, Bool.not_eq_true'] at isShown
  rw [partsFrom.eq_def]
  exact (if_neg (Bool.eq_false_iff.mp isShown)).trans (if_neg (Bool.eq_false_iff.mp plain))

theorem partsFrom_road {number : String} (isRoad : line.isRoad = true) :
    partsFrom last (some number) (line :: rest) =
      append last (number ++ " " ++ line.text) fun last => partsFrom last none rest := by
  have plain := AddressLine.not_isNumber_of_isRoad isRoad
  rw [AddressLine.isShown, Bool.not_eq_true'] at isShown
  rw [partsFrom.eq_def]
  exact (if_neg (Bool.eq_false_iff.mp isShown)).trans ((if_neg plain).trans (if_pos isRoad))

theorem partsFrom_noRoad {number : String} (plain : line.isNumber = false)
    (notRoad : line.isRoad = false) :
    partsFrom last (some number) (line :: rest) =
      number :: append (some number) line.text fun last => partsFrom last none rest := by
  rw [AddressLine.isShown, Bool.not_eq_true'] at isShown
  rw [partsFrom.eq_def]
  exact (if_neg (Bool.eq_false_iff.mp isShown)).trans
    ((if_neg (Bool.eq_false_iff.mp plain)).trans (if_neg (Bool.eq_false_iff.mp notRoad)))

end Steps

theorem partsFrom_cons_congr {other : List AddressLine}
    (same : ∀ last pending, partsFrom last pending rest = partsFrom last pending other)
    (last pending : Option String) :
    partsFrom last pending (line :: rest) = partsFrom last pending (line :: other) := by
  cases pending with
  | none => simp only [partsFrom, same]
  | some number => simp only [partsFrom, same]

/-- The lines that are not shown make no difference. -/
theorem partsFrom_shown (last pending : Option String) (lines : List AddressLine) :
    partsFrom last pending (shown lines) = partsFrom last pending lines := by
  induction lines generalizing last pending with
  | nil => rfl
  | cons line rest ih =>
      by_cases isShown : line.isShown = true
      · rw [shown, List.filter_cons_of_pos isShown]
        exact partsFrom_cons_congr ih last pending
      · rw [shown, List.filter_cons_of_neg isShown,
          partsFrom_hidden (Bool.eq_false_iff.mpr isShown)]
        exact ih last pending

/-- Of house numbers one after the other, the last is the one that waits for its road. -/
theorem partsFrom_giveWay (allShown : ∀ line ∈ lines, line.isShown = true)
    (last pending : Option String) :
    partsFrom last pending (giveWay lines) = partsFrom last pending lines := by
  induction lines generalizing last pending with
  | nil => rfl
  | cons line rest ih =>
      obtain ⟨isShown, allShown⟩ := List.forall_mem_cons.mp allShown
      rw [giveWay]
      split
      · rename_i both
        obtain ⟨isNumber, followed⟩ := Bool.and_eq_true_iff.mp both
        rw [ih allShown, partsFrom_number isShown isNumber]
        cases rest with
        | nil => exact absurd followed Bool.false_ne_true
        | cons next others =>
            have isShownToo := (List.forall_mem_cons.mp allShown).1
            rw [partsFrom_number isShownToo followed, partsFrom_number isShownToo followed]
      · exact partsFrom_cons_congr (ih allShown) last pending

theorem append_again (last : Option String) (part : String)
    (rest : Option String → List String) :
    (append last part fun last => append last part rest) = append last part rest := by
  by_cases repeats : last = some part <;> simp [append, repeats]

theorem writeFrom_cons (last : Option String) (text : String) (others : List Phrase) :
    writeFrom last (⟨text, false⟩ :: others) =
      append last text fun last => writeFrom last others := by
  rw [writeFrom, append]
  exact if_congr (and_iff_right rfl) (by simp) rfl

theorem writeFrom_cons_alone (last : Option String) (text : String) (others : List Phrase) :
    writeFrom last (⟨text, true⟩ :: others) = text :: writeFrom (some text) others :=
  rfl

/-- While a number waits for its road, it is to be written with what the lines say. -/
theorem partsFrom_eq_writeFrom (allShown : ∀ line ∈ lines, line.isShown = true)
    (apart : NumbersApart lines) :
    (∀ last before, (∀ number ∈ before, number.isNumber = false) →
      partsFrom last none lines = writeFrom last (phrasesFrom before lines)) ∧
    ∀ last before number, number.isNumber = true →
      (∀ next ∈ lines.head?, next.isNumber = false) →
      partsFrom last (some number.text) lines =
        writeFrom last (phrasesFrom before (number :: lines)) := by
  induction lines with
  | nil =>
      refine ⟨fun _ _ _ => rfl, fun last before number isNumber _ => ?_⟩
      rw [phrasesFrom, phrase_of_alone isNumber (by simp)]
      rfl
  | cons line rest ih =>
      obtain ⟨isShown, allShown⟩ := List.forall_mem_cons.mp allShown
      obtain ⟨next, apart⟩ := List.isChain_cons.mp apart
      -- a number begins the wait, and whatever comes next ends it
      obtain ⟨behind, waiting⟩ := ih allShown apart
      have onwards (plain : line.isNumber = false) :
          (fun last => partsFrom last none rest) =
            fun last => writeFrom last (phrasesFrom (some line) rest) :=
        funext fun last => behind last (some line) (by simpa using plain)
      constructor
      · intro last before plainBefore
        by_cases isNumber : line.isNumber = true
        · rw [partsFrom_number isShown isNumber]
          refine waiting last before line isNumber fun other isNext => ?_
          exact Bool.eq_false_iff.mpr fun isNumberToo => next other isNext ⟨isNumber, isNumberToo⟩
        · have plain := Bool.eq_false_iff.mpr isNumber
          rw [partsFrom_plain isShown plain, phrasesFrom,
            phrase_of_plain plain fun _ => plainBefore, writeFrom_cons, onwards plain]
      · intro last before number isNumber notNumber
        have plain : line.isNumber = false := notNumber line rfl
        rw [phrasesFrom, phrasesFrom, List.head?_cons]
        by_cases isRoad : line.isRoad = true
        · rw [partsFrom_road isShown isRoad, phrase_of_followed isNumber isRoad,
            phrase_of_road isNumber isRoad, writeFrom_cons, onwards plain]
          -- the road says again what its number said, which is left out
          simp only [writeFrom_cons]
          exact (append_again ..).symm
        · have notRoad := Bool.eq_false_iff.mpr isRoad
          rw [partsFrom_noRoad isShown plain notRoad, phrase_of_alone isNumber (by simpa),
            phrase_of_plain plain (absurd · isRoad), writeFrom_cons_alone, writeFrom_cons,
            onwards plain]

theorem isShown_of_mem_shown (member : line ∈ shown lines) : line.isShown = true :=
  (List.mem_filter.mp member).2

theorem isShown_of_mem_counted (member : line ∈ counted lines) : line.isShown = true :=
  isShown_of_mem_shown (giveWay_subset _ member)

theorem parts_counted (lines : List AddressLine) : parts (counted lines) = parts lines := by
  rw [parts, counted, partsFrom_giveWay fun _ => isShown_of_mem_shown, partsFrom_shown, parts]

/-- Where no house number follows another, the parts are made up by what the lines say. -/
theorem parts_eq_write (allShown : ∀ line ∈ lines, line.isShown = true)
    (apart : NumbersApart lines) : parts lines = write (phrases lines) :=
  (partsFrom_eq_writeFrom allShown apart).1 none none (by simp)

/-- The parts of a display name are made up by what the lines say that count for it. -/
theorem parts_eq_write_counted (lines : List AddressLine) :
    parts lines = write (phrases (counted lines)) := by
  rw [← parts_counted]
  exact parts_eq_write (fun _ => isShown_of_mem_counted) (numbersApart_giveWay (shown lines))

/-! ## One phrase after the other -/

theorem writeFrom_append (last : Option String) (front others : List Phrase) :
    writeFrom last (front ++ others) =
      writeFrom last front ++ writeFrom (last.toList ++ writeFrom last front).getLast? others := by
  induction front generalizing last with
  | nil => cases last <;> rfl
  | cons phrase front ih =>
      rw [List.cons_append, writeFrom, writeFrom]
      split
      · exact ih last
      · rw [ih, List.cons_append]
        simp [List.getLast?_append, List.getLast?_cons]

/-- Phrases are written behind those before them. -/
theorem write_append (front others : List Phrase) :
    write (front ++ others) = write front ++ writeFrom (write front).getLast? others :=
  writeFrom_append none front others

/-- A phrase is left out if it repeats the part before it, unless it stands alone. -/
theorem write_concat (front : List Phrase) (phrase : Phrase) :
    write (front ++ [phrase]) =
      write front ++
        if phrase.isAlone = false ∧ (write front).getLast? = some phrase.text then []
        else [phrase.text] :=
  write_append front [phrase]

/-- Whether it is left out or not, the last part is what it says. -/
theorem getLast?_write_concat (front : List Phrase) (phrase : Phrase) :
    (write (front ++ [phrase])).getLast? = some phrase.text := by
  rw [write_concat]
  split
  · rename_i repeats
    rw [List.append_nil, repeats.2]
  · rw [List.getLast?_concat]

end Address

end Gazetteer
