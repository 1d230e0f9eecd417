import Gazetteer.Importance.Scores
import Gazetteer.Proofs.Plane.Comparison
import Mathlib.Data.List.Basic

/-!
# Scores in any order

The score of a thing is that of its first row, unless a later one is greater.  Nothing is greater
than an undefined score, and that is greater than nothing.  So if it comes first it is never
replaced and keeps out all that come later; anywhere else it has no effect.  Apart from that the
greatest of the scores is taken, and the order of the rows does not matter.
-/

namespace Gazetteer

namespace Importance

/-! ## The greatest of some scores -/

/-- The greater of the best score so far and another. -/
def keep (best : Option Float) (score : Float) : Option Float :=
  some (best.elim score fun best => Scalar.greatest best score)

/-- What scores come to, one after the other. -/
def greatest? (scores : List Float) : Option Float :=
  scores.foldl keep none

/-- One of some scores that none is greater than, and a defined one if any of them is. -/
structure IsLargest (scores : List Float) (best : Float) : Prop where
  mem : best ∈ scores
  isDefined : (∃ score ∈ scores, score.isNaN = false) → best.isNaN = false
  largest : ∀ score ∈ scores, ¬ best < score

/-- The first of some scores is undefined, although there are defined ones among them. -/
def Blocked (scores : List Float) : Prop :=
  (∃ first ∈ scores.head?, first.isNaN = true) ∧ ∃ score ∈ scores, score.isNaN = false

instance (scores : List Float) : Decidable (Blocked scores) :=
  inferInstanceAs (Decidable (_ ∧ _))

/-- Two scores are equal, or both are undefined. -/
def Agree (first second : Float) : Prop :=
  (first == second) = true ∨ first.isNaN = true ∧ second.isNaN = true

theorem greatest?_cons (first : Float) (rest : List Float) :
    greatest? (first :: rest) = some (rest.foldl Scalar.greatest first) := by
  have fold (best : Float) : rest.foldl keep (some best) =
      some (rest.foldl Scalar.greatest best) := by
    induction rest generalizing best with
    | nil => rfl
    | cons score rest ih => exact ih (Scalar.greatest best score)
  exact fold first

theorem greatest?_eq_none_iff {scores : List Float} : greatest? scores = none ↔ scores = [] := by
  cases scores with
  | nil => simp [greatest?]
  | cons first rest => simp [greatest?_cons]

/-- An undefined score stays for good. -/
theorem foldl_greatest_of_isNaN {first : Float} (undefined : first.isNaN = true)
    (rest : List Float) : rest.foldl Scalar.greatest first = first := by
  induction rest with
  | nil => rfl
  | cons score rest ih =>
      have kept : Scalar.greatest first score = first :=
        if_neg (Binary64.not_lt_of_isNaN undefined score)
      rw [List.foldl_cons, kept, ih]

/-- If the largest score so far is defined, the greater of it and the next is the largest. -/
theorem IsLargest.step {seen : List Float} {best : Float} (isLargest : IsLargest seen best)
    (isDefined : best.isNaN = false) (score : Float) :
    IsLargest (seen ++ [score]) (Scalar.greatest best score) ∧
      (Scalar.greatest best score).isNaN = false := by
  unfold Scalar.greatest
  split
  · rename_i less
    have nextDefined := (Binary64.isNaN_eq_false_of_lt less).2
    refine ⟨⟨List.mem_append_right _ List.mem_cons_self, fun _ => nextDefined, ?_⟩, nextDefined⟩
    refine List.forall_mem_append.mpr ⟨fun earlier member more => ?_,
      List.forall_mem_singleton.mpr (FloatingOrder.irrefl score)⟩
    exact isLargest.largest earlier member (FloatingOrder.trans less more)
  · rename_i notLess
    refine ⟨⟨List.mem_append_left _ isLargest.mem, fun _ => isDefined, ?_⟩, isDefined⟩
    exact List.forall_mem_append.mpr ⟨isLargest.largest, List.forall_mem_singleton.mpr notLess⟩

/-- So whatever scores follow, the largest of all is kept. -/
theorem IsLargest.run {seen : List Float} {best : Float} (isLargest : IsLargest seen best)
    (isDefined : best.isNaN = false) (rest : List Float) :
    IsLargest (seen ++ rest) (rest.foldl Scalar.greatest best) := by
  induction rest generalizing seen best with
  | nil => rwa [List.append_nil]
  | cons score rest ih =>
      obtain ⟨next, nextDefined⟩ := isLargest.step isDefined score
      rw [List.append_cons]
      exact ih next nextDefined

/-- What scores come to is the largest of them unless an undefined one keeps out the others. -/
theorem isLargest_iff {scores : List Float} {best : Float} (found : greatest? scores = some best) :
    IsLargest scores best ↔ ¬ Blocked scores := by
  cases scores with
  | nil => contradiction
  | cons first rest =>
      obtain rfl := Option.some.inj ((greatest?_cons first rest).symm.trans found)
      cases undefined : first.isNaN with
      | false =>
          have alone : IsLargest [first] first :=
            ⟨List.mem_singleton_self first, fun _ => undefined,
              List.forall_mem_singleton.mpr (FloatingOrder.irrefl first)⟩
          refine iff_of_true (alone.run undefined rest) ?_
          rintro ⟨⟨_, ⟨⟩, isNaN⟩, _⟩
          exact absurd isNaN (Bool.eq_false_iff.mp undefined)
      | true =>
          -- the first score stays, and is the largest only if none is defined
          rw [foldl_greatest_of_isNaN undefined]
          constructor
          · rintro isLargest ⟨_, someDefined⟩
            rw [isLargest.isDefined someDefined] at undefined
            contradiction
          · intro notBlocked
            exact ⟨List.mem_cons_self,
              fun someDefined => absurd ⟨⟨first, rfl, undefined⟩, someDefined⟩ notBlocked,
              fun score _ => Binary64.not_lt_of_isNaN undefined score⟩

/-- Where scores are kept out, they come to an undefined one. -/
theorem isNaN_of_blocked {scores : List Float} {best : Float} (blocked : Blocked scores)
    (found : greatest? scores = some best) : best.isNaN = true := by
  obtain ⟨⟨first, isFirst, undefined⟩, _⟩ := blocked
  obtain ⟨rest, rfl⟩ := List.head?_eq_some_iff.mp isFirst
  rw [greatest?_cons, foldl_greatest_of_isNaN undefined] at found
  exact Option.some.inj found ▸ undefined

/-- Of the same scores in any order, the largest agree. -/
theorem IsLargest.agree {scores others : List Float} {best other : Float}
    (perm : scores.Perm others) (isLargest : IsLargest scores best)
    (alsoLargest : IsLargest others other) : Agree best other := by
  by_cases someDefined : ∃ score ∈ scores, score.isNaN = false
  · have otherDefined : ∃ score ∈ others, score.isNaN = false := by
      obtain ⟨score, member, isDefined⟩ := someDefined
      exact ⟨score, perm.mem_iff.mp member, isDefined⟩
    refine Or.inl (Binary64.beq_of_not_lt (isLargest.isDefined someDefined)
      (alsoLargest.isDefined otherDefined) ?_ ?_)
    · exact isLargest.largest other (perm.mem_iff.mpr alsoLargest.mem)
    · exact alsoLargest.largest best (perm.mem_iff.mp isLargest.mem)
  · have undefined : ∀ score ∈ scores, score.isNaN = true := fun score member =>
      Bool.not_eq_false _ ▸ fun isDefined => someDefined ⟨score, member, isDefined⟩
    exact Or.inr ⟨undefined best isLargest.mem,
      undefined other (perm.mem_iff.mpr alsoLargest.mem)⟩

theorem Agree.symm {first second : Float} (agree : Agree first second) : Agree second first :=
  agree.imp (BEq.symm) And.symm

theorem Agree.isNaN {first second : Float} (agree : Agree first second)
    (undefined : first.isNaN = true) : second.isNaN = true := by
  rcases agree with equal | ⟨_, alsoUndefined⟩
  · exact absurd undefined (Bool.eq_false_iff.mp (Binary64.isNaN_eq_false_of_beq equal))
  · exact alsoUndefined

/-- Where scores are kept out in one order only, they come to different ones. -/
theorem not_agree_of_blocked {scores others : List Float} {best other : Float}
    (perm : scores.Perm others) (found : greatest? scores = some best)
    (alsoFound : greatest? others = some other) (blocked : Blocked scores)
    (notBlocked : ¬ Blocked others) : ¬ Agree best other := by
  intro agree
  obtain ⟨score, member, isDefined⟩ := blocked.2
  have otherDefined := ((isLargest_iff alsoFound).mpr notBlocked).isDefined
    ⟨score, perm.mem_iff.mp member, isDefined⟩
  rw [agree.isNaN (isNaN_of_blocked blocked found)] at otherDefined
  contradiction

/-- The same scores in another order come to the same exactly if some are kept out in both orders
or in neither. -/
theorem rel_agree_greatest?_iff {scores others : List Float} (perm : scores.Perm others) :
    Option.Rel Agree (greatest? scores) (greatest? others) ↔ (Blocked scores ↔ Blocked others) := by
  cases found : greatest? scores with
  | none =>
      obtain rfl := greatest?_eq_none_iff.mp found
      obtain rfl := perm.nil_eq
      exact iff_of_true .none Iff.rfl
  | some best =>
      cases alsoFound : greatest? others with
      | none =>
          obtain rfl := greatest?_eq_none_iff.mp alsoFound
          obtain rfl := perm.eq_nil
          contradiction
      | some other =>
          rw [Option.rel_some_some]
          by_cases blocked : Blocked scores <;> by_cases alsoBlocked : Blocked others
          · exact iff_of_true (Or.inr ⟨isNaN_of_blocked blocked found,
              isNaN_of_blocked alsoBlocked alsoFound⟩) (iff_of_true blocked alsoBlocked)
          · exact iff_of_false (not_agree_of_blocked perm found alsoFound blocked alsoBlocked)
              fun same => alsoBlocked (same.mp blocked)
          · refine iff_of_false (fun agree => ?_) fun same => blocked (same.mpr alsoBlocked)
            exact not_agree_of_blocked perm.symm alsoFound found alsoBlocked blocked agree.symm
          · exact iff_of_true (IsLargest.agree perm ((isLargest_iff found).mpr blocked)
              ((isLargest_iff alsoFound).mpr alsoBlocked)) (iff_of_false blocked alsoBlocked)

/-! ## Scores by number -/

/-- The scores that entries have for a number, in order. -/
def scoresOf (id : String) (entries : List (String × Float)) : List Float :=
  (entries.filter fun entry => entry.1 == id).map Prod.snd

theorem Scores.getElem?_add (scores : Scores) (entry : String × Float) (id : String) :
    (scores.add entry)[id]? = if entry.1 == id then keep scores[id]? entry.2 else scores[id]? := by
  obtain ⟨number, score⟩ := entry
  by_cases same : number = id
  · subst same
    cases found : scores[number]? with
    | none => simp [add, keep, found]
    | some best =>
        by_cases less : best < score <;> simp [add, keep, Scalar.greatest, found, less]
  · cases found : scores[number]? with
    | none => simp [add, found, Std.HashMap.getElem?_insert, same]
    | some best =>
        by_cases less : best < score <;>
          simp [add, found, less, Std.HashMap.getElem?_insert, same]

/-- Under each number is what its scores come to, one after the other. -/
theorem Scores.getElem?_ofEntries (entries : List (String × Float)) (id : String) :
    (ofEntries entries)[id]? = greatest? (scoresOf id entries) := by
  have fold (scores : Scores) : (entries.foldl add scores)[id]? =
      (scoresOf id entries).foldl keep scores[id]? := by
    induction entries generalizing scores with
    | nil => rfl
    | cons entry rest ih =>
        rw [List.foldl_cons, ih, getElem?_add]
        by_cases same : entry.1 == id <;> simp [scoresOf, same]
  rw [ofEntries, fold, Std.HashMap.getElem?_empty]
  rfl

/-! ## Tables -/

/-- The headings and the rows of a table, if all of it is text. -/
def texts? (bytes : List UInt8) : Option (List String × List (List String)) :=
  match rows bytes with
  | [] => none
  | heading :: others =>
    match readFields 0 heading.start 0 heading.fields, readRows 1 others with
    | .ok headings, .ok data => some (headings, data)
    | _, _ => none

/-- A row has a number and a score that can be read, each under its heading. -/
def Gives (headings row : List String) (id : String) (score : Float) : Prop :=
  row[headings.idxOf numberHeading]? = some id ∧
    ∃ text, row[headings.idxOf scoreHeading]? = some text ∧ Decimal.readFloat text = .ok score

/-- The number and the score that a row gives. -/
def given? (headings row : List String) : Option (String × Float) :=
  scored? (headings.idxOf scoreHeading) (headings.idxOf numberHeading) row

/-- The scores that rows give a number, in order. -/
def scoresIn (headings : List String) (data : List (List String)) (id : String) : List Float :=
  scoresOf id (data.filterMap (given? headings))

theorem given?_eq_some_iff {headings row : List String} {id : String} {score : Float} :
    given? headings row = some (id, score) ↔ Gives headings row id score := by
  have accepted (text : String) :
      (Decimal.readFloat text).toOption = some score ↔ Decimal.readFloat text = .ok score := by
    cases Decimal.readFloat text <;> simp [Except.toOption]
  simp only [given?, scored?, Gives, ← accepted, Option.bind_eq_bind, Option.bind_eq_some_iff,
    Option.some.injEq, Prod.mk.injEq]
  constructor
  · rintro ⟨number, isNumber, text, isText, value, isValue, rfl, rfl⟩
    exact ⟨isNumber, text, isText, isValue⟩
  · rintro ⟨isNumber, text, isText, isValue⟩
    exact ⟨id, isNumber, text, isText, score, isValue, rfl, rfl⟩

theorem mem_scoresIn_iff {headings : List String} {data : List (List String)} {id : String}
    {score : Float} :
    score ∈ scoresIn headings data id ↔ ∃ row ∈ data, Gives headings row id score := by
  simp only [scoresIn, scoresOf, List.mem_map, List.mem_filter, List.mem_filterMap, beq_iff_eq]
  constructor
  · rintro ⟨⟨number, value⟩, ⟨⟨row, member, found⟩, rfl⟩, rfl⟩
    exact ⟨row, member, given?_eq_some_iff.mp found⟩
  · rintro ⟨row, member, gives⟩
    exact ⟨(id, score), ⟨⟨row, member, given?_eq_some_iff.mpr gives⟩, rfl⟩, rfl⟩

theorem columnOf_of_mem {headings : List String} {heading : String} (member : heading ∈ headings) :
    columnOf headings heading = .ok (headings.idxOf heading) := by
  rw [columnOf, List.idxOf_eq_getD_idxOf?]
  cases found : headings.idxOf? heading with
  | none => exact absurd member (List.idxOf?_eq_none_iff.mp found)
  | some column => rfl

/-- A table with both headings is loaded. -/
theorem Scores.load_of_texts? {bytes : List UInt8} {headings : List String}
    {data : List (List String)} (table : texts? bytes = some (headings, data))
    (scored : scoreHeading ∈ headings) (numbered : numberHeading ∈ headings) :
    load (.table bytes) = .ok (ofEntries (data.filterMap (given? headings))) := by
  unfold texts? at table
  split at table
  · contradiction
  · rename_i heading others split
    split at table
    · rename_i isHeading isData
      cases table
      rw [load, ofTable, split]
      simp only [ofRows, isHeading, isData, columnOf_of_mem scored, columnOf_of_mem numbered, bind,
        Except.bind, pure, Except.pure]
      rfl
    · contradiction

theorem filterMap_filter_isSome {α β : Type} (read? : α → Option β) (list : List α) :
    (list.filter fun each => (read? each).isSome).filterMap read? = list.filterMap read? := by
  rw [List.filterMap_filter]
  refine List.filterMap_congr fun each _ => ?_
  cases read? each <;> rfl

/-- Two tables whose rows give the same scores, in whichever order they come and whatever other
rows there are, are both loaded.  A number is there exactly if a row gives it a score, and it has
the largest of its scores unless the first is undefined and keeps out the others.  So the tables
come to the same scores exactly if scores are kept out for the same numbers in both. -/
theorem Scores.load_perm {bytes moved : List UInt8} {headings : List String}
    {data others : List (List String)} (table : texts? bytes = some (headings, data))
    (alsoTable : texts? moved = some (headings, others)) (scored : scoreHeading ∈ headings)
    (numbered : numberHeading ∈ headings)
    (perm : (data.filter fun row => (given? headings row).isSome).Perm
      (others.filter fun row => (given? headings row).isSome)) :
    ∃ scores again, load (.table bytes) = .ok scores ∧ load (.table moved) = .ok again ∧
      (∀ id, id ∈ scores ↔ ∃ row ∈ data, ∃ score, Gives headings row id score) ∧
      (∀ id best, scores[id]? = some best →
        (IsLargest (scoresIn headings data id) best ↔ ¬ Blocked (scoresIn headings data id))) ∧
      ((∀ id : String, Option.Rel Agree scores[id]? again[id]?) ↔
        ∀ id, Blocked (scoresIn headings data id) ↔ Blocked (scoresIn headings others id)) := by
  refine ⟨_, _, load_of_texts? table scored numbered, load_of_texts? alsoTable scored numbered,
    ?_, ?_, ?_⟩
  · intro id
    rw [Std.HashMap.mem_iff_isSome_getElem?, getElem?_ofEntries, Option.isSome_iff_ne_none, ne_eq,
      greatest?_eq_none_iff]
    constructor
    · intro nonempty
      obtain ⟨score, member⟩ := List.exists_mem_of_ne_nil _ nonempty
      obtain ⟨row, isRow, gives⟩ := mem_scoresIn_iff.mp member
      exact ⟨row, isRow, score, gives⟩
    · rintro ⟨row, isRow, score, gives⟩
      exact List.ne_nil_of_mem (mem_scoresIn_iff.mpr ⟨row, isRow, gives⟩)
  · intro id best found
    rw [getElem?_ofEntries] at found
    exact isLargest_iff found
  · refine forall_congr' fun id => ?_
    have entries : (data.filterMap (given? headings)).Perm
        (others.filterMap (given? headings)) := by
      have kept := perm.filterMap (given? headings)
      rwa [filterMap_filter_isSome, filterMap_filter_isSome] at kept
    rw [getElem?_ofEntries, getElem?_ofEntries]
    exact rel_agree_greatest?_iff ((entries.filter _).map Prod.snd)

/-! ## Two editions -/

/-- A table of scores with some lines below the headings. -/
def edition (lines : List String) : List UInt8 :=
  Text.Utf8.bytes ("\n".intercalate ("importance\twikidata_id" :: lines))

/-- The headings of an edition. -/
def editionHeadings : List String := [scoreHeading, numberHeading]

/-- If all rows of an edition are about one number, scores can only be kept out for that. -/
theorem eq_of_blocked {data : List (List String)} {id only : String}
    (alone : ∀ row ∈ data, ∀ entry ∈ given? editionHeadings row, entry.1 = only)
    (blocked : Blocked (scoresIn editionHeadings data id)) : id = only := by
  obtain ⟨_, score, member, _⟩ := blocked
  obtain ⟨row, isRow, gives⟩ := mem_scoresIn_iff.mp member
  exact alone row isRow (id, score) (given?_eq_some_iff.mpr gives)

/-- The larger of two scores is found in either order.  A row that is too short, one whose score
cannot be read and one whose score is undefined change nothing. -/
theorem load_perm_editions :
    ∃ scores again,
      Scores.load (.table (edition ["0.5\tQ1", "NaN\tQ1", "0.7\tQ1", "many\tQ1"])) = .ok scores ∧
      Scores.load (.table (edition ["0.7\tQ1", "0.9", "0.5\tQ1", "NaN\tQ1"])) = .ok again ∧
      "Q1" ∈ scores ∧ ∀ id : String, Option.Rel Agree scores[id]? again[id]? := by
  let data := [["0.5", "Q1"], ["NaN", "Q1"], ["0.7", "Q1"], ["many", "Q1"]]
  let others := [["0.7", "Q1"], ["0.9"], ["0.5", "Q1"], ["NaN", "Q1"]]
  have table : texts? (edition ["0.5\tQ1", "NaN\tQ1", "0.7\tQ1", "many\tQ1"]) =
      some (editionHeadings, data) := by decide +kernel
  have alsoTable : texts? (edition ["0.7\tQ1", "0.9", "0.5\tQ1", "NaN\tQ1"]) =
      some (editionHeadings, others) := by decide +kernel
  have perm : (data.filter fun row => (given? editionHeadings row).isSome).Perm
      (others.filter fun row => (given? editionHeadings row).isSome) := by decide +kernel
  obtain ⟨scores, again, loaded, alsoLoaded, present, _, same⟩ :=
    Scores.load_perm table alsoTable (by decide) (by decide) perm
  have gives : ∃ row ∈ data, ∃ score, Gives editionHeadings row "Q1" score :=
    ⟨["0.5", "Q1"], .head _, _, rfl, _, rfl, rfl⟩
  refine ⟨scores, again, loaded, alsoLoaded, (present "Q1").mpr gives, same.mpr fun id => ?_⟩
  have free : ¬ Blocked (scoresIn editionHeadings data "Q1") := by decide +kernel
  have alsoFree : ¬ Blocked (scoresIn editionHeadings others "Q1") := by decide +kernel
  constructor
  · intro blocked
    obtain rfl : id = "Q1" := eq_of_blocked (by decide +kernel) blocked
    exact absurd blocked free
  · intro blocked
    obtain rfl : id = "Q1" := eq_of_blocked (by decide +kernel) blocked
    exact absurd blocked alsoFree

/-- Two rows come to an undefined score in one order and to a defined one in the other. -/
theorem load_isNaN_of_first :
    ∃ (data others : List (List String)) (scores again : Scores),
      texts? (edition ["NaN\tQ1", "0.5\tQ1"]) = some (editionHeadings, data) ∧
      texts? (edition ["0.5\tQ1", "NaN\tQ1"]) = some (editionHeadings, others) ∧
      data.Perm others ∧
      Scores.load (.table (edition ["NaN\tQ1", "0.5\tQ1"])) = .ok scores ∧
      Scores.load (.table (edition ["0.5\tQ1", "NaN\tQ1"])) = .ok again ∧
      (∃ best ∈ scores["Q1"]?, best.isNaN = true) ∧ ∃ best ∈ again["Q1"]?, best.isNaN = false := by
  have table : texts? (edition ["NaN\tQ1", "0.5\tQ1"]) =
      some (editionHeadings, [["NaN", "Q1"], ["0.5", "Q1"]]) := by decide +kernel
  have alsoTable : texts? (edition ["0.5\tQ1", "NaN\tQ1"]) =
      some (editionHeadings, [["0.5", "Q1"], ["NaN", "Q1"]]) := by decide +kernel
  refine ⟨_, _, _, _, table, alsoTable, .swap ..,
    Scores.load_of_texts? table (by decide) (by decide),
    Scores.load_of_texts? alsoTable (by decide) (by decide), ?_, ?_⟩
  · rw [Scores.getElem?_ofEntries]
    decide +kernel
  · rw [Scores.getElem?_ofEntries]
    decide +kernel

end Importance

end Gazetteer
