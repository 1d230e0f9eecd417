import Gazetteer.Proofs.Language.Entries

/-!
# Languages that are read again

The languages of a header make up a header themselves when they are joined with commas.  Where
all languages are written plainly, with letters, digits, hyphens and underscores, reading that
header gives the same list.  Its entries have no parameters, so all weigh the same and stay in
their order; each is spelled as it is; and the bases of all of them are there already.
-/

namespace Gazetteer.Language

variable {header code : String}

/-- The languages as a header writes them: the texts in front of the first semicolons. -/
def written (header : String) : List (List Char) :=
  (Text.pieces ',' header.toList).map fun part => Text.trimChars (part.takeWhile (· ≠ ';'))

/-- A language that begins with a letter or a digit, and in which only letters, digits, hyphens
and underscores stand. -/
def IsPlain (language : List Char) : Prop :=
  language.head?.any Char.isAlphanum = true ∧
    ∀ c ∈ language, c.isAlphanum = true ∨ c = '-' ∨ c = '_'

instance (language : List Char) : Decidable (IsPlain language) :=
  @instDecidableAnd _ _ inferInstance (List.decidableBAll _ language)

/-- A plain language in its one spelling. -/
structure IsTag (code : String) : Prop where
  start : code.toList.head?.any Char.isAlphanum = true
  chars : ∀ c ∈ code.toList, c.isAlphanum = true ∨ c = '-'
  small : ∀ c ∈ code.toList, c.toLower = c

/-! ## Plain languages -/

theorem isTag_normalize {text : List Char} (plain : IsPlain (Text.trimChars text)) :
    IsTag (normalize text) := by
  obtain ⟨start, chars⟩ := plain
  have spelled {c : Char} (alphanumeric : c.isAlphanum = true) :
      (if c.toLower = '_' then '-' else c.toLower) = c.toLower := by
    refine if_neg fun underscore => ?_
    rw [Text.toLower_eq_underscore_iff.mp underscore] at alphanumeric
    exact absurd alphanumeric (by decide)
  constructor
  · rw [toList_normalize, List.head?_map, Option.any_map]
    obtain ⟨c, first, alphanumeric⟩ := Option.any_eq_true _ _ |>.mp start
    rw [first, Option.any_some]
    exact (congrArg Char.isAlphanum (spelled alphanumeric)).trans
      (Text.isAlphanum_toLower alphanumeric)
  · rw [toList_normalize, List.forall_mem_map]
    intro c member
    rcases chars c member with alphanumeric | rfl | rfl
    · rw [spelled alphanumeric]
      exact Or.inl (Text.isAlphanum_toLower alphanumeric)
    · exact Or.inr (by decide)
    · exact Or.inr (by decide)
  · rw [toList_normalize, List.forall_mem_map]
    intro c member
    rcases chars c member with alphanumeric | rfl | rfl
    · rw [spelled alphanumeric]
      exact Text.toLower_toLower c
    · decide
    · decide

namespace IsTag

theorem not_mem (isTag : IsTag code) {c : Char} (other : c.isAlphanum = false)
    (noHyphen : c ≠ '-') : c ∉ code.toList := by
  intro member
  rcases isTag.chars c member with alphanumeric | hyphen
  · rw [other] at alphanumeric
    contradiction
  · exact noHyphen hyphen

theorem ne_empty (isTag : IsTag code) : code ≠ "" := by
  rintro rfl
  exact absurd isTag.start (by decide)

theorem ne_any (isTag : IsTag code) : code ≠ "*" := by
  rintro rfl
  exact absurd isTag.start (by decide)

theorem normalize_eq (isTag : IsTag code) : normalize code.toList = code := by
  have visible : ∀ c ∈ code.toList, Text.isBlankChar c = false := by
    intro c member
    rcases isTag.chars c member with alphanumeric | rfl
    · exact Text.isBlankChar_of_isAlphanum alphanumeric
    · decide
  rw [normalize_eq_lower visible (isTag.not_mem (by decide) (by decide)), Text.lower,
    List.map_congr_left isTag.small, List.map_id', String.ofList_toList]

/-- The base of a plain language is not empty, since no hyphen comes first. -/
theorem base {base : String} (isTag : IsTag code) (isBase : IsBase base code) : IsTag base := by
  obtain ⟨⟨rest, rfl⟩, _⟩ := isBase
  obtain ⟨start, chars, small⟩ := isTag
  simp only [String.toList_append, List.append_assoc] at start chars small
  constructor
  · cases first : base.toList with
    | nil =>
        rw [first] at start
        exact absurd start (by simp)
    | cons c more =>
        rw [first] at start
        exact start
  · exact fun c member => chars c (List.mem_append_left _ member)
  · exact fun c member => small c (List.mem_append_left _ member)

end IsTag

/-! ## Lists of plain languages -/

theorem IsTag.weighted?_eq (isTag : IsTag code) :
    weighted? code.toList = some ⟨code, fullWeight⟩ := by
  have spelled := isTag.normalize_eq
  rw [weighted?_of_plain (isTag.not_mem (by decide) (by decide))
    (spelled.symm ▸ isTag.ne_empty) (spelled.symm ▸ isTag.ne_any), spelled]

/-- Plain languages all have the same weight, so they are ranked as they are listed. -/
theorem ranked_intercalate {languages : List String} (nonempty : languages ≠ [])
    (tags : ∀ code ∈ languages, IsTag code) :
    ranked (String.intercalate "," languages) =
      languages.map fun code => ⟨code, fullWeight⟩ := by
  have parts : Text.pieces ',' (String.intercalate "," languages).toList =
      languages.map String.toList := by
    rw [String.toList_intercalate]
    refine Text.pieces_intercalate (by simpa using nonempty) ?_
    rw [List.forall_mem_map]
    exact fun code member => (tags code member).not_mem (by decide) (by decide)
  have entries : (languages.map String.toList).filterMap weighted? =
      languages.map fun code => ⟨code, fullWeight⟩ := by
    rw [List.filterMap_map, ← List.filterMap_eq_map]
    exact List.filterMap_congr fun code member => (tags code member).weighted?_eq
  rw [ranked, parts, entries]
  apply List.mergeSort_of_pairwise
  rw [List.pairwise_map]
  exact List.pairwise_of_forall fun _ _ => decide_eq_true le_rfl

/-- A list of different plain languages with all their bases is read as it is. -/
theorem parse_intercalate {languages : List String} (tags : ∀ code ∈ languages, IsTag code)
    (distinct : languages.Nodup)
    (closed : ∀ code ∈ languages, ∀ base, IsBase base code → base ∈ languages) :
    parse (String.intercalate "," languages) = languages := by
  by_cases empty : languages = []
  · rw [empty]
    decide +kernel
  have codes : (ranked (String.intercalate "," languages)).map Weighted.code = languages := by
    rw [ranked_intercalate empty tags, List.map_map]
    exact List.map_id' languages
  have bases : ∀ base ∈ languages.filterMap base?, base ∈ languages := by
    intro base member
    obtain ⟨code, isCode, found⟩ := List.mem_filterMap.mp member
    exact closed code isCode base (base?_eq_some_iff.mp found)
  rw [parse, codes, appendNew_eq_append_news, appendNew_eq_append_news, List.nil_append,
    news_eq_self distinct (fun _ _ => List.not_mem_nil), news_eq_nil bases, List.append_nil]

/-! ## The languages of a header -/

theorem isTag_of_accepts
    (plain : ∀ language ∈ written header, language ≠ [] → language ≠ ['*'] → IsPlain language)
    (accepted : Accepts header code) : IsTag code := by
  obtain ⟨_, member, weight, gives⟩ := accepted
  obtain ⟨part, isPart, rfl⟩ := List.mem_map.mp member
  rw [← gives.spelled]
  refine isTag_normalize (plain _ (List.mem_map_of_mem isPart) (fun none => ?_) fun any => ?_)
  · refine gives.named (gives.spelled.symm.trans ?_)
    rw [Entry.code, ← String.toList_inj, toList_normalize]
    exact congrArg (List.map _) none
  · refine gives.special (gives.spelled.symm.trans ?_)
    rw [Entry.code, ← String.toList_inj, toList_normalize]
    exact congrArg (List.map _) any

/-- The languages of a header that names its languages plainly, or names none or any, are read
as they are when they are joined with commas. -/
theorem parse_intercalate_parse
    (plain : ∀ language ∈ written header, language ≠ [] → language ≠ ['*'] → IsPlain language) :
    parse (String.intercalate "," (parse header)) = parse header := by
  refine parse_intercalate ?_ (nodup_parse header) ?_
  · intro code member
    rcases mem_parse_iff_accepts.mp member with accepted | ⟨regional, accepted, isBase⟩
    · exact isTag_of_accepts plain accepted
    · exact (isTag_of_accepts plain accepted).base isBase
  · intro code member base isBase
    rcases mem_parse_iff_accepts.mp member with accepted | ⟨regional, _, isCode⟩
    · exact mem_parse_iff_accepts.mpr (Or.inr ⟨code, accepted, isBase⟩)
    · -- a base has no hyphen, and so no base
      obtain ⟨⟨rest, rfl⟩, _⟩ := isBase
      exact absurd (by simp) isCode.first

/-- Two regional languages, the base of one of them, any language, and none. -/
def wishes : String :=
  "de-CH, *;q=0, en_GB,, DE"

/-- The wishes are read as four languages, the base of British English last, and these again as
themselves. -/
theorem parse_intercalate_parse_wishes :
    (∀ language ∈ written wishes, language ≠ [] → language ≠ ['*'] → IsPlain language) ∧
      parse (String.intercalate "," (parse wishes)) = parse wishes ∧
      parse wishes = ["de-ch", "en-gb", "de", "en"] := by
  have plain : ∀ language ∈ written wishes, language ≠ [] → language ≠ ['*'] →
      IsPlain language := by
    decide +kernel
  have entries : (Text.pieces ',' wishes.toList).filterMap weighted? =
      ["de-ch", "en-gb", "de"].map fun code => ⟨code, fullWeight⟩ := by
    decide +kernel
  -- all weights are full, so there is nothing to sort
  have sorted : ranked wishes = ["de-ch", "en-gb", "de"].map fun code => ⟨code, fullWeight⟩ := by
    rw [ranked, entries]
    exact List.mergeSort_of_pairwise (by decide +kernel)
  have read : parse wishes = ["de-ch", "en-gb", "de", "en"] := by
    rw [parse, sorted]
    decide +kernel
  exact ⟨plain, parse_intercalate_parse plain, read⟩

end Gazetteer.Language
