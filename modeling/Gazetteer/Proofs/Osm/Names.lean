import Gazetteer.Naming
import Gazetteer.Osm.Tagging
import Gazetteer.Proofs.Language
import Gazetteer.Proofs.Store

/-!
# Names from tags

A tag that names a place writes to one key of its names, and of the tags that write to the
same key the last one counts.  A translated name is written under its language code in small
letters, with underscores left as they are; but whoever asks for a language asks with hyphens
in their place.  So a translated name can be asked for by its own code exactly if the code
has no underscore.
-/

namespace Gazetteer

namespace Osm

/-! ## The key that a tag writes to -/

theorem translation_ne_name (code : String) : "name:" ++ code ≠ "name" := by
  simp [← String.toList_inj, String.toList_append]

/-- The untranslated name comes before the translated ones. -/
theorem name_lt_translation (code : String) : "name" < "name:" ++ code := by
  rw [String.lt_iff, String.toList_append]
  simp

/-- Only the untranslated name and translated ones with the code of a language are names. -/
theorem ofKey_eq_name_iff {key language : String} :
    TagRole.ofKey key = .name language ↔
      key = "name" ∧ language = "" ∨
        ∃ code, key = "name:" ++ code ∧ isLanguageCode code.toList = true ∧
          language = Text.lower code := by
  unfold TagRole.ofKey
  split
  · rename_i plain
    constructor
    · intro same
      exact Or.inl ⟨plain, (TagRole.name.inj same).symm⟩
    · rintro (⟨_, rfl⟩ | ⟨code, rfl, _⟩)
      · rfl
      · exact absurd plain (translation_ne_name code)
  · rename_i translated
    split
    · rename_i code found
      obtain rfl := Text.afterText?_eq_some_iff.mp found
      constructor
      · intro same
        split at same
        · rename_i accepted
          exact Or.inr ⟨code, rfl, accepted, (TagRole.name.inj same).symm⟩
        · cases same
      · rintro (⟨plain, _⟩ | ⟨other, same, accepted, rfl⟩)
        · exact absurd plain translated
        · obtain rfl := Option.some.inj (found.symm.trans (Text.afterText?_eq_some_iff.mpr same))
          exact if_pos accepted
    · rename_i missing
      constructor
      · intro same
        split at same
        · cases same
        · split at same
          · cases same
          · split at same <;> cases same
      · rintro (⟨plain, _⟩ | ⟨code, rfl, _⟩)
        · exact absurd plain translated
        · rw [Text.afterText?_eq_some_iff.mpr rfl] at missing
          cases missing

/-- The key of the names that a tag writes to. -/
def nameKey? (key : String) : Option String :=
  match TagRole.ofKey key with
  | .name language => some (if language.isEmpty then defaultNameKey else language)
  | _ => none

/-- The code of a language is more than one character. -/
theorem two_le_length_lower {code : String} (accepted : isLanguageCode code.toList = true) :
    2 ≤ (Text.lower code).toList.length := by
  simp only [isLanguageCode, Bool.and_eq_true, decide_eq_true_eq] at accepted
  rw [Text.lower, String.toList_ofList, List.length_map]
  exact accepted.1.1.1

theorem lower_ne_empty {code : String} (accepted : isLanguageCode code.toList = true) :
    Text.lower code ≠ "" := by
  intro empty
  have long := two_le_length_lower accepted
  rw [empty] at long
  exact absurd long (by decide)

theorem nameKey?_eq_some_iff {key name : String} :
    nameKey? key = some name ↔
      key = "name" ∧ name = defaultNameKey ∨
        ∃ code, key = "name:" ++ code ∧ isLanguageCode code.toList = true ∧
          name = Text.lower code := by
  constructor
  · intro writes
    unfold nameKey? at writes
    split at writes
    · rename_i language named
      obtain rfl := Option.some.inj writes
      rcases ofKey_eq_name_iff.mp named with ⟨plain, rfl⟩ | ⟨code, translated, accepted, rfl⟩
      · exact Or.inl ⟨plain, rfl⟩
      · refine Or.inr ⟨code, translated, accepted, if_neg ?_⟩
        simpa using lower_ne_empty accepted
    · cases writes
  · rintro (⟨plain, rfl⟩ | ⟨code, translated, accepted, rfl⟩)
    · rw [nameKey?, ofKey_eq_name_iff.mpr (Or.inl ⟨plain, rfl⟩)]
      rfl
    · rw [nameKey?, ofKey_eq_name_iff.mpr (Or.inr ⟨code, translated, accepted, rfl⟩)]
      simp [lower_ne_empty accepted]

/-- The characters of a language code are not blank. -/
theorem isBlankChar_of_isLanguageChar {c : Char} (isPart : isLanguageChar c = true) :
    Text.isBlankChar c = false := by
  simp only [isLanguageChar, Bool.or_eq_true, decide_eq_true_eq] at isPart
  rcases isPart with (alphanumeric | rfl) | rfl
  · exact Text.isBlankChar_of_isAlphanum alphanumeric
  · decide
  · decide

/-- The tags have no two translated names whose codes differ in the case of letters only. -/
def DistinctNames (tags : Tags) : Prop :=
  tags.entries.Pairwise fun first second =>
    ∀ code ∈ Text.afterText? "name:" first.1, ∀ other ∈ Text.afterText? "name:" second.1,
      Text.lower code ≠ Text.lower other

/-- No later tag writes to the key of a translated name. -/
theorem getLast?_filter_of_translation {tags : Tags} (distinct : DistinctNames tags)
    {code text : String} (tagged : ("name:" ++ code, text) ∈ tags.entries)
    (accepted : isLanguageCode code.toList = true) :
    (tags.entries.filter fun tag => nameKey? tag.1 = some (Text.lower code)).getLast? =
      some ("name:" ++ code, text) := by
  obtain ⟨before, after, whole⟩ := List.append_of_mem tagged
  have sorted := tags.sorted
  rw [DistinctNames, whole] at distinct
  rw [whole] at sorted
  have apart := (List.pairwise_cons.mp (List.pairwise_append.mp distinct).2.1).1
  have ascending := (List.pairwise_cons.mp (List.pairwise_append.mp sorted).2.1).1
  have others : after.filter (fun tag => nameKey? tag.1 = some (Text.lower code)) = [] := by
    rw [List.filter_eq_nil_iff]
    intro later member
    rw [decide_eq_true_eq]
    intro writes
    rcases nameKey?_eq_some_iff.mp writes with ⟨plain, _⟩ | ⟨other, translated, _, same⟩
    · have reversed := ascending later member
      rw [plain] at reversed
      exact absurd (name_lt_translation code) (String.lt_asymm reversed)
    · exact apart later member code (Text.afterText?_eq_some_iff.mpr rfl) other
        (Text.afterText?_eq_some_iff.mpr translated) same
  have writes : nameKey? ("name:" ++ code) = some (Text.lower code) :=
    nameKey?_eq_some_iff.mpr (Or.inr ⟨code, rfl, accepted, rfl⟩)
  rw [whole, List.filter_append, List.filter_cons_of_pos (by simpa using writes), others]
  exact List.getLast?_concat

end Osm

namespace Place

open Osm

variable {K : Type} {place : Place K}

/-! ## The names of a place -/

theorem names_withTag (place : Place K) (tag : String × String) :
    (place.withTag tag).names =
      match nameKey? tag.1 with
      | some key => place.names.insert key tag.2
      | none => place.names := by
  unfold withTag nameKey?
  cases TagRole.ofKey tag.1 <;> rfl

theorem get?_names_withTag_of_eq {tag : String × String} {key : String}
    (writes : nameKey? tag.1 = some key) :
    (place.withTag tag).names.get? key = some tag.2 := by
  rw [names_withTag, writes]
  exact Tags.get?_insert_self ..

theorem get?_names_withTag_of_ne {tag : String × String} {key : String}
    (other : nameKey? tag.1 ≠ some key) :
    (place.withTag tag).names.get? key = place.names.get? key := by
  rw [names_withTag]
  cases writes : nameKey? tag.1 with
  | none => rfl
  | some written =>
      rw [writes] at other
      exact Tags.get?_insert_of_ne _ _ fun same => other (congrArg some same.symm)

theorem get?_names_foldl (entries : List (String × String)) (key : String) :
    (entries.foldl withTag place).names.get? key =
      ((entries.filter fun tag => nameKey? tag.1 = some key).getLast?.map Prod.snd).or
        (place.names.get? key) := by
  induction entries generalizing place with
  | nil => rfl
  | cons tag rest ih =>
      rw [List.foldl_cons, ih]
      by_cases writes : nameKey? tag.1 = some key
      · rw [get?_names_withTag_of_eq writes, List.filter_cons_of_pos (by simpa using writes),
          List.getLast?_cons]
        cases (rest.filter fun tag => nameKey? tag.1 = some key).getLast? <;> rfl
      · rw [get?_names_withTag_of_ne writes, List.filter_cons_of_neg (by simpa using writes)]

theorem names_withTags (place : Place K) (tags : Tags) :
    (place.withTags tags).names = (tags.entries.foldl withTag place).names := by
  simp only [withTags]
  split <;> rfl

/-- A name is the text of the last tag that writes to its key. -/
theorem get?_names_withTags (place : Place K) (tags : Tags) (key : String) :
    (place.withTags tags).names.get? key =
      ((tags.entries.filter fun tag => nameKey? tag.1 = some key).getLast?.map Prod.snd).or
        (place.names.get? key) := by
  rw [names_withTags, get?_names_foldl]

/-- A translated name is found under its code in small letters. -/
theorem get?_names_of_translation {tags : Tags} (distinct : DistinctNames tags)
    {code text : String} (tagged : ("name:" ++ code, text) ∈ tags.entries)
    (accepted : isLanguageCode code.toList = true) :
    (place.withTags tags).names.get? (Text.lower code) = some text := by
  rw [get?_names_withTags, getLast?_filter_of_translation distinct tagged accepted]
  rfl

/-! ## Asking for a translated name -/

/-- Whoever asks for a code without underscores asks for its small letters first. -/
theorem exists_parse_of_isLanguageCode {code : String}
    (accepted : isLanguageCode code.toList = true) (plain : '_' ∉ code.toList) :
    ∃ more, Language.parse code = Text.lower code :: more := by
  have parts : ∀ c ∈ code.toList, isLanguageChar c = true := by
    simp only [isLanguageCode, Bool.and_eq_true, List.all_eq_true] at accepted
    exact accepted.1.2
  have spelled : Language.normalize code.toList = Text.lower code :=
    Language.normalize_eq_lower (fun c member => isBlankChar_of_isLanguageChar (parts c member))
      plain
  have absent : ∀ c, isLanguageChar c = false → c ∉ code.toList := fun c other member =>
    absurd (parts c member) (Bool.eq_false_iff.mp other)
  rw [← spelled]
  apply Language.exists_parse_of_plain (absent ',' (by decide)) (absent ';' (by decide))
  · rw [spelled]
    exact lower_ne_empty accepted
  · rw [spelled]
    intro star
    have long := two_le_length_lower accepted
    rw [star] at long
    exact absurd long (by decide)

/-- Two names, one of them translated. -/
def bilingual (code name translation : String) : Tags :=
  ⟨[("name", name), ("name:" ++ code, translation)],
    List.pairwise_pair.mpr (name_lt_translation code)⟩

theorem distinctNames_bilingual (code name translation : String) :
    DistinctNames (bilingual code name translation) := by
  have untranslated : Text.afterText? "name:" "name" = none := by decide
  simp [DistinctNames, bilingual, untranslated]

theorem names_bilingual (nameless : place.names = ∅) {code : String}
    (accepted : isLanguageCode code.toList = true) (name translation : String) :
    (place.withTags (bilingual code name translation)).names =
      (Tags.empty.insert defaultNameKey name).insert (Text.lower code) translation := by
  have untranslated : nameKey? "name" = some defaultNameKey :=
    nameKey?_eq_some_iff.mpr (Or.inl ⟨rfl, rfl⟩)
  have translated : nameKey? ("name:" ++ code) = some (Text.lower code) :=
    nameKey?_eq_some_iff.mpr (Or.inr ⟨code, rfl, accepted, rfl⟩)
  rw [names_withTags]
  simp only [bilingual, List.foldl_cons, List.foldl_nil, names_withTag, untranslated, translated]
  rw [nameless]
  rfl

/-- A place goes by its untranslated name for readers who do not ask for the very code of the
translated one. -/
theorem name?_bilingual (nameless : place.names = ∅) {code name translation : String}
    (accepted : isLanguageCode code.toList = true) (special : Text.lower code ≠ defaultNameKey)
    (visible : Text.isBlank name = false) {languages : List String}
    (others : Text.lower code ∉ languages) :
    (place.withTags (bilingual code name translation)).name? languages = some name := by
  have nameIn (language : String) (other : language ≠ Text.lower code) :
      (place.withTags (bilingual code name translation)).nameIn? language =
        if language = defaultNameKey then some name else none := by
    rw [nameIn?, names_bilingual nameless accepted, Tags.get?_insert_of_ne _ _ other]
    split
    · rename_i same
      rw [same, Tags.get?_insert_self]
      simp [notBlank?, visible]
    · rename_i different
      rw [Tags.get?_insert_of_ne _ _ different]
      rfl
  have untranslated := nameIn defaultNameKey special.symm
  rw [if_pos rfl] at untranslated
  cases found : languages.findSome? (place.withTags (bilingual code name translation)).nameIn? with
  | none => simp [name?, found, untranslated]
  | some text =>
      obtain ⟨language, member, has⟩ := List.exists_of_findSome?_eq_some found
      rw [nameIn language fun same => others (same ▸ member)] at has
      have same : text = name := by
        split at has
        · exact (Option.some.inj has).symm
        · cases has
      simp [name?, found, same]

/-- The translated names with the code of a language are found by whoever asks for that code,
whatever the tags, exactly if the code has no underscore. -/
theorem name?_of_translation_iff (nameless : place.names = ∅) {code : String}
    (accepted : isLanguageCode code.toList = true) :
    (∀ tags : Tags, DistinctNames tags → ∀ text, ("name:" ++ code, text) ∈ tags.entries →
        Text.isBlank text = false →
          (place.withTags tags).name? (Language.parse code) = some text) ↔
      '_' ∉ code.toList := by
  constructor
  · intro found underscore
    have marked : '_' ∈ (Text.lower code).toList := Text.underscore_mem_lower underscore
    have translated := found (bilingual code "A" "B") (distinctNames_bilingual ..) "B"
      (by simp [bilingual]) (by decide)
    have untranslated : (place.withTags (bilingual code "A" "B")).name? (Language.parse code) =
        some "A" := by
      apply name?_bilingual nameless accepted
      · intro same
        rw [same] at marked
        exact absurd marked (by decide)
      · decide
      · intro asked
        exact Language.underscore_not_mem_of_mem_parse asked marked
    exact absurd (untranslated.symm.trans translated) (by decide)
  · intro plain tags distinct text tagged visible
    obtain ⟨more, asked⟩ := exists_parse_of_isLanguageCode accepted plain
    have first : (place.withTags tags).nameIn? (Text.lower code) = some text := by
      rw [nameIn?, get?_names_of_translation distinct tagged accepted]
      simp [notBlank?, visible]
    rw [name?, asked, List.findSome?_cons, first]
    rfl

/-- A hyphen in the code is read as it is written. -/
theorem name?_of_translation_iff_hyphen :
    (Place.pin 0 16 []).names = ∅ ∧ isLanguageCode "zh-Hant".toList = true ∧
      ((Place.pin 0 16 []).withTags (bilingual "zh-Hant" "Taipei" "台北")).name?
        (Language.parse "zh-Hant") = some "台北" := by
  have nameless : (Place.pin 0 16 []).names = ∅ := rfl
  have accepted : isLanguageCode "zh-Hant".toList = true := by decide
  refine ⟨nameless, accepted, ?_⟩
  apply (name?_of_translation_iff nameless accepted).mpr (by decide)
  · exact distinctNames_bilingual ..
  · exact List.mem_cons_of_mem _ List.mem_cons_self
  · decide

/-- An underscore is read as a hyphen, under which there is no name. -/
theorem name?_ne_translation_underscore :
    (Place.pin 0 16 []).names = ∅ ∧ isLanguageCode "zh_hant".toList = true ∧
      DistinctNames (bilingual "zh_hant" "Taipei" "台北") ∧
      ("name:zh_hant", "台北") ∈ (bilingual "zh_hant" "Taipei" "台北").entries ∧
      Text.isBlank "台北" = false ∧
      ((Place.pin 0 16 []).withTags (bilingual "zh_hant" "Taipei" "台北")).name?
        (Language.parse "zh_hant") = some "Taipei" ∧ "Taipei" ≠ "台北" := by
  have member : ("name:zh_hant", "台北") ∈ (bilingual "zh_hant" "Taipei" "台北").entries :=
    List.mem_cons_of_mem _ List.mem_cons_self
  refine ⟨rfl, by decide, distinctNames_bilingual .., member, by decide, ?_, by decide⟩
  decide +kernel

end Place

end Gazetteer
