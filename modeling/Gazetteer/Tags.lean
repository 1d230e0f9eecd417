import Gazetteer.Text.Pieces

/-!
# Tags

A set of tags: texts under keys, each key once, in the order of the keys.  The order is
that of code points, so two sets with the same tags are the same list, and whoever goes
through the tags meets them in one fixed order.
-/

namespace Gazetteer

/-- Texts under keys, in the order of the keys. -/
structure Tags where
  entries : List (String × String)
  sorted : entries.Pairwise fun first second => first.1 < second.1
deriving DecidableEq

namespace Tags

/-- No tags. -/
def empty : Tags := ⟨[], List.Pairwise.nil⟩

instance : Inhabited Tags := ⟨empty⟩

instance : EmptyCollection Tags := ⟨empty⟩

/-- Put an entry where it belongs in a sorted list, in place of one with the same key. -/
def place (key value : String) : List (String × String) → List (String × String)
  | [] => [(key, value)]
  | entry :: rest =>
    if key < entry.1 then (key, value) :: entry :: rest
    else if entry.1 < key then entry :: place key value rest
    else (key, value) :: rest

/-- Neither of two keys comes before the other only if they are equal. -/
theorem eq_of_not_lt {first second : String} (notBefore : ¬ first < second)
    (notAfter : ¬ second < first) : first = second :=
  String.le_antisymm (String.not_lt.1 notAfter) (String.not_lt.1 notBefore)

/-- The entries after an insertion are the new one and old ones. -/
theorem mem_place {key value : String} {entries : List (String × String)}
    {entry : String × String} (member : entry ∈ place key value entries) :
    entry = (key, value) ∨ entry ∈ entries := by
  induction entries with
  | nil => simpa [place] using member
  | cons first rest ih =>
    rw [place] at member
    split at member
    · simpa using member
    · split at member
      · rcases List.mem_cons.1 member with rfl | inRest
        · simp
        · rcases ih inRest with rfl | old
          · simp
          · simp [old]
      · rcases List.mem_cons.1 member with rfl | inRest
        · simp
        · simp [inRest]

theorem sorted_place (key value : String) {entries : List (String × String)}
    (sorted : entries.Pairwise fun first second => first.1 < second.1) :
    (place key value entries).Pairwise fun first second => first.1 < second.1 := by
  induction entries with
  | nil => simp [place]
  | cons first rest ih =>
    obtain ⟨above, tail⟩ := List.pairwise_cons.1 sorted
    rw [place]
    split
    · rename_i before
      refine List.pairwise_cons.2 ⟨?_, sorted⟩
      intro entry member
      rcases List.mem_cons.1 member with rfl | inRest
      · exact before
      · exact String.lt_trans before (above entry inRest)
    · rename_i notBefore
      split
      · rename_i after
        refine List.pairwise_cons.2 ⟨?_, ih tail⟩
        intro entry member
        rcases mem_place member with rfl | old
        · exact after
        · exact above entry old
      · rename_i notAfter
        have equal : key = first.1 := eq_of_not_lt notBefore notAfter
        refine List.pairwise_cons.2 ⟨?_, tail⟩
        intro entry member
        rw [equal]
        exact above entry member

/-- Set the text under a key. -/
def insert (tags : Tags) (key value : String) : Tags :=
  ⟨place key value tags.entries, sorted_place key value tags.sorted⟩

/-- The text under a key. -/
def get? (tags : Tags) (key : String) : Option String :=
  (tags.entries.find? fun entry => entry.1 == key).map Prod.snd

/-- Whether there is a text under a key. -/
def hasKey (tags : Tags) (key : String) : Bool :=
  tags.entries.any fun entry => entry.1 == key

/-- Whether a key has this very text. -/
def has (tags : Tags) (key value : String) : Bool :=
  tags.get? key == some value

/-- The texts, in the order of their keys. -/
def values (tags : Tags) : List String :=
  tags.entries.map Prod.snd

/-- Whether there are no tags. -/
def isEmpty (tags : Tags) : Bool :=
  tags.entries.isEmpty

/-- Tags from a list of pairs; of two texts under one key the later counts. -/
def ofList (pairs : List (String × String)) : Tags :=
  pairs.foldl (fun tags pair => tags.insert pair.1 pair.2) empty

@[ext] theorem ext {first second : Tags} (equal : first.entries = second.entries) :
    first = second := by
  cases first
  cases second
  simp_all

@[simp] theorem get?_empty (key : String) : empty.get? key = none := rfl

/-- Reading the key that was just set. -/
@[simp] theorem get?_insert_self (tags : Tags) (key value : String) :
    (tags.insert key value).get? key = some value := by
  obtain ⟨entries, sorted⟩ := tags
  simp only [insert, get?]
  clear sorted
  induction entries with
  | nil => simp [place]
  | cons first rest ih =>
    rw [place]
    split
    · simp
    · split
      · rename_i after
        have different : (first.1 == key) = false := by
          simp only [beq_eq_false_iff_ne]
          rintro rfl
          exact String.lt_irrefl _ after
        simpa [List.find?_cons, different] using ih
      · simp

/-- Setting a key leaves the others as they are. -/
theorem get?_insert_of_ne (tags : Tags) {key other : String} (value : String)
    (different : other ≠ key) : (tags.insert key value).get? other = tags.get? other := by
  obtain ⟨entries, sorted⟩ := tags
  simp only [insert, get?]
  clear sorted
  have miss : (key == other) = false := by simp [different.symm]
  induction entries with
  | nil => simp [place, miss]
  | cons first rest ih =>
    rw [place]
    split
    · simp [List.find?_cons, miss]
    · split
      · by_cases hit : (first.1 == other) = true
        · simp [hit]
        · simpa [List.find?_cons, hit] using ih
      · rename_i notBefore notAfter
        have equal : key = first.1 := eq_of_not_lt notBefore notAfter
        simp [miss, ← equal]

end Tags

end Gazetteer
