import Gazetteer.Proofs.Osm.Names

/-!
# The untranslated name

The untranslated name is kept among the translated ones, under a key that is spelled like the
code of a language.  A translated name whose code is that very word, in whatever case of
letters, writes to the same key.  It comes later in the order of the tags, so it takes the
place of the untranslated name.  No other tag writes to that key.
-/

namespace Gazetteer

/-! ## Lists and texts -/

namespace Text

theorem isAlphanum_of_toLower {c : Char} (alphanumeric : c.toLower.isAlphanum = true) :
    c.isAlphanum = true := by
  unfold Char.toLower at alphanumeric
  split at alphanumeric
  · rename_i upper
    exact isAlphanum_iff.mpr (Or.inl upper)
  · exact alphanumeric

theorem length_le_of_occursIn {part chars : List Char} (occurs : occursIn part chars = true) :
    part.length ≤ chars.length := by
  induction chars with
  | nil =>
      obtain rfl := List.isEmpty_iff.mp occurs
      exact Nat.le_refl _
  | cons c rest ih =>
      rcases Bool.or_eq_true_iff.mp occurs with here | later
      · exact (List.isPrefixOf_iff_prefix.mp here).length_le
      · exact Nat.le_succ_of_le (ih later)

end Text

/-- Where nothing of the second kind comes before anything of the first, those of either kind
are those of the first and then those of the second. -/
theorem filter_or_eq_append {α : Type} {first second : α → Bool} {list : List α}
    (ordered : list.Pairwise fun earlier later => second earlier = true → first later = false)
    (disjoint : ∀ each ∈ list, first each = true → second each = false) :
    (list.filter fun each => first each || second each) =
      list.filter first ++ list.filter second := by
  induction list with
  | nil => rfl
  | cons each rest ih =>
      obtain ⟨ahead, ordered⟩ := List.pairwise_cons.mp ordered
      obtain ⟨here, disjoint⟩ := List.forall_mem_cons.mp disjoint
      have tail := ih ordered disjoint
      cases isFirst : first each with
      | true =>
          simp only [List.filter_cons, isFirst, here isFirst, Bool.true_or, if_true, tail,
            Bool.false_eq_true, if_false, List.cons_append]
      | false =>
          cases isSecond : second each with
          | true =>
              have none : rest.filter first = [] :=
                List.filter_eq_nil_iff.mpr fun later member =>
                  Bool.eq_false_iff.mp (ahead later member isSecond)
              simp only [List.filter_cons, isFirst, isSecond, Bool.or_true, if_true, tail, none,
                Bool.false_eq_true, if_false, List.nil_append]
          | false =>
              simp only [List.filter_cons, isFirst, isSecond, Bool.or_false, tail,
                Bool.false_eq_true, if_false]

/-- A key has one text, so the last entry with the key is the one that is found. -/
theorem Tags.getLast?_filter_key (tags : Tags) (key : String) :
    (tags.entries.filter fun tag => tag.1 == key).getLast?.map Prod.snd = tags.get? key := by
  have sorted := tags.sorted.filter fun tag => tag.1 == key
  have keyed : ∀ tag ∈ tags.entries.filter fun tag => tag.1 == key, tag.1 = key :=
    fun tag member => beq_iff_eq.mp (List.mem_filter.mp member).2
  rw [get?, ← List.head?_filter]
  generalize tags.entries.filter (fun tag => tag.1 == key) = found at sorted keyed
  cases found with
  | nil => rfl
  | cons first others =>
      cases others with
      | nil => rfl
      | cons second rest =>
          have before := (List.pairwise_cons.mp sorted).1 second List.mem_cons_self
          rw [keyed first List.mem_cons_self,
            keyed second (List.mem_cons_of_mem _ List.mem_cons_self)] at before
          exact absurd before (String.lt_irrefl _)

namespace Osm

/-! ## The key of the untranslated name -/

/-- Whether a key is that of a translated name whose code, in small letters, is the key under
which the untranslated name is kept. -/
def translatesDefault (key : String) : Bool :=
  match Text.afterText? "name:" key with
  | some code => Text.lower code == defaultNameKey
  | none => false

theorem translatesDefault_iff {key : String} :
    translatesDefault key = true ↔
      ∃ code, key = "name:" ++ code ∧ Text.lower code = defaultNameKey := by
  unfold translatesDefault
  split
  · rename_i code found
    rw [beq_iff_eq]
    constructor
    · exact fun same => ⟨code, Text.afterText?_eq_some_iff.mp found, same⟩
    · rintro ⟨other, translated, same⟩
      have found' := Text.afterText?_eq_some_iff.mpr translated
      obtain rfl := Option.some.inj (found.symm.trans found')
      exact same
  · rename_i missing
    constructor
    · intro impossible
      contradiction
    · rintro ⟨code, translated, _⟩
      rw [Text.afterText?_eq_some_iff.mpr translated] at missing
      contradiction

/-- The word under which the untranslated name is kept passes for the code of a language,
however it is written. -/
theorem isLanguageCode_of_lower {code : String} (same : Text.lower code = defaultNameKey) :
    isLanguageCode code.toList = true := by
  have letters : code.toList.map Char.toLower = defaultNameKey.toList := by
    rw [← same, Text.lower, String.toList_ofList]
  have length : code.toList.length = 7 := by
    rw [← List.length_map (f := Char.toLower), letters]
    rfl
  have plain : ∀ c ∈ defaultNameKey.toList, c.isAlphanum = true :=
    List.all_eq_true.mp (by decide +kernel)
  have parts : ∀ c ∈ code.toList, isLanguageChar c = true := by
    intro c member
    have small : c.toLower ∈ defaultNameKey.toList := letters ▸ List.mem_map_of_mem member
    simp [isLanguageChar, Text.isAlphanum_of_toLower (plain _ small)]
  have short : Text.occursIn "etymology".toList code.toList = false := by
    rw [Bool.eq_false_iff]
    intro occurs
    have long := Text.length_le_of_occursIn occurs
    rw [length] at long
    exact absurd long (by decide)
  rw [isLanguageCode, length, short, List.all_eq_true.mpr parts]
  rfl

/-- Two sorts of tags write to the key of the untranslated name. -/
theorem nameKey?_eq_default_iff {key : String} :
    nameKey? key = some defaultNameKey ↔ (key == "name" || translatesDefault key) = true := by
  rw [nameKey?_eq_some_iff, Bool.or_eq_true, beq_iff_eq, translatesDefault_iff]
  constructor
  · rintro (⟨plain, _⟩ | ⟨code, translated, _, same⟩)
    · exact Or.inl plain
    · exact Or.inr ⟨code, translated, same.symm⟩
  · rintro (plain | ⟨code, translated, same⟩)
    · exact Or.inl ⟨plain, rfl⟩
    · exact Or.inr ⟨code, translated, isLanguageCode_of_lower same, same.symm⟩

/-- The text of the last tag that names a place in a language which is called like the key of
the untranslated name. -/
def overriding? (tags : Tags) : Option String :=
  (tags.entries.filter fun tag => translatesDefault tag.1).getLast?.map Prod.snd

/-- The tags that write to the key of the untranslated name are its own, and then the
translations that override it. -/
theorem filter_nameKey?_default (tags : Tags) :
    (tags.entries.filter fun tag => nameKey? tag.1 = some defaultNameKey) =
      (tags.entries.filter fun tag => tag.1 == "name") ++
        tags.entries.filter fun tag => translatesDefault tag.1 := by
  have either : ∀ tag ∈ tags.entries, decide (nameKey? tag.1 = some defaultNameKey) =
      (tag.1 == "name" || translatesDefault tag.1) := by
    intro tag _
    rw [Bool.eq_iff_iff, decide_eq_true_eq, nameKey?_eq_default_iff]
  rw [List.filter_congr either]
  apply filter_or_eq_append
  · refine tags.sorted.imp ?_
    intro earlier later before translates
    obtain ⟨code, translated, _⟩ := translatesDefault_iff.mp translates
    rw [beq_eq_false_iff_ne]
    intro plain
    rw [translated, plain] at before
    exact String.lt_asymm before (name_lt_translation code)
  · intro tag _ plain
    rw [Bool.eq_false_iff]
    intro translates
    obtain ⟨code, translated, _⟩ := translatesDefault_iff.mp translates
    exact translation_ne_name code (translated.symm.trans (beq_iff_eq.mp plain))

end Osm

namespace Place

open Osm

variable {K : Type} {place : Place K}

/-- The untranslated name of a place that had no names is the text that overrides it, or else
that of its own tag. -/
theorem defaultName?_withTags (nameless : place.names = ∅) (tags : Tags) :
    (place.withTags tags).defaultName? = (overriding? tags).or (tags.get? "name") := by
  rw [defaultName?, get?_names_withTags, filter_nameKey?_default, List.getLast?_append, nameless,
    Option.map_or, Tags.getLast?_filter_key]
  exact Option.or_none

/-- The untranslated name of a place that had no names is what its own tag says, and there is
none without that tag, exactly if no translation overrides it with another text. -/
theorem defaultName?_withTags_eq_iff (nameless : place.names = ∅) (tags : Tags) :
    (place.withTags tags).defaultName? = tags.get? "name" ↔
      ∀ text ∈ overriding? tags, tags.get? "name" = some text := by
  rw [defaultName?_withTags nameless]
  cases overriding? tags with
  | none => simp
  | some text =>
      rw [Option.some_or]
      constructor
      · rintro same _ ⟨⟩
        exact same.symm
      · exact fun same => (same text rfl).symm

/-- A country with three tags that are called like names, one of which names it. -/
def kingdom : Tags :=
  .ofList [("name", "United Kingdom"), ("name:de", "Vereinigtes Königreich"),
    ("name:etymology", "union"), ("ISO3166-1", "GB")]

theorem defaultName?_withTags_eq_iff_kingdom :
    (Place.pin 0 4 []).names = ∅ ∧
      ((Place.pin 0 4 []).withTags kingdom).defaultName? = some "United Kingdom" := by
  have nameless : (Place.pin 0 4 []).names = ∅ := rfl
  have named : kingdom.get? "name" = some "United Kingdom" := by decide +kernel
  have alone : overriding? kingdom = none := by decide +kernel
  refine ⟨nameless, ?_⟩
  rw [(defaultName?_withTags_eq_iff nameless kingdom).mpr (by simp [alone]), named]

/-- A city goes by the name that it has in a language called `default`, and not by its own. -/
theorem defaultName?_ne_name_of_default :
    (Place.pin 0 16 []).names = ∅ ∧
      (bilingual "default" "Birmingham" "Brum").get? "name" = some "Birmingham" ∧
      ((Place.pin 0 16 []).withTags (bilingual "default" "Birmingham" "Brum")).defaultName? =
        some "Brum" ∧
      "Brum" ≠ "Birmingham" := by
  refine ⟨rfl, ?_, ?_, by decide⟩
  · decide +kernel
  · decide +kernel

end Place

end Gazetteer
