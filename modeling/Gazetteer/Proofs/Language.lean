import Gazetteer.Language
import Gazetteer.Proofs.Text

/-!
# The languages of a header

The languages of a header are the codes of its entries, in one spelling, and what is before
the first hyphen of one of them.  That spelling has no underscores, so none of the languages
has any.  A header that is nothing but a code puts that code first.
-/

namespace Gazetteer.Language

/-! ## Codes in one spelling -/

theorem toList_normalize (code : List Char) :
    (normalize code).toList =
      (Text.trimChars code).map fun c => if c.toLower = '_' then '-' else c.toLower :=
  String.toList_ofList

theorem underscore_not_mem_normalize (code : List Char) : '_' ∉ (normalize code).toList := by
  rw [toList_normalize]
  intro member
  obtain ⟨c, _, written⟩ := List.mem_map.mp member
  split at written
  · contradiction
  · contradiction

/-- Without blank space and underscores, only the case of letters changes. -/
theorem normalize_eq_lower {code : String}
    (visible : ∀ c ∈ code.toList, Text.isBlankChar c = false) (plain : '_' ∉ code.toList) :
    normalize code.toList = Text.lower code := by
  rw [normalize, Text.trimChars_of_forall visible, Text.lower]
  congr 1
  apply List.map_congr_left
  intro c member
  rw [if_neg]
  intro underscore
  exact plain (Text.toLower_eq_underscore_iff.mp underscore ▸ member)

/-! ## The entries -/

/-- The code of an entry is in the one spelling. -/
theorem exists_normalize_of_weighted? {part : List Char} {entry : Weighted}
    (found : weighted? part = some entry) : ∃ code, entry.code = normalize code := by
  unfold weighted? at found
  split at found
  · contradiction
  · rename_i code parameters _
    dsimp only at found
    split at found
    · contradiction
    · obtain ⟨weight, _, rfl⟩ := Option.map_eq_some_iff.mp found
      exact ⟨code, rfl⟩

theorem mem_ranked_iff {header : String} {entry : Weighted} :
    entry ∈ ranked header ↔
      ∃ part ∈ Text.pieces ',' header.toList, weighted? part = some entry := by
  rw [ranked, List.mem_mergeSort, List.mem_filterMap]

/-- A code without parameters has the full weight. -/
theorem weighted?_of_plain {code : List Char} (noParameter : ';' ∉ code)
    (named : normalize code ≠ "") (notAny : normalize code ≠ "*") :
    weighted? code = some ⟨normalize code, fullWeight⟩ := by
  rw [weighted?, Text.pieces_of_not_mem noParameter]
  simp [named, notAny, weight?]

/-! ## The list of languages -/

theorem mem_appendNew_iff {codes more : List String} {code : String} :
    code ∈ appendNew codes more ↔ code ∈ codes ∨ code ∈ more := by
  fun_induction appendNew codes more with
  | case1 codes => simp
  | case2 codes first rest known ih =>
      rw [ih, List.mem_cons]
      have isKnown : first ∈ codes := List.contains_iff_mem.mp known
      grind
  | case3 codes first rest _ ih =>
      rw [ih, List.mem_append, List.mem_singleton, List.mem_cons, or_assoc]

theorem prefix_appendNew (codes more : List String) : codes <+: appendNew codes more := by
  fun_induction appendNew codes more with
  | case1 codes => exact List.prefix_rfl
  | case2 codes first rest _ ih => exact ih
  | case3 codes first rest _ ih => exact (List.prefix_append codes [first]).trans ih

/-- The codes of `more` that are not among `codes`, each only where it comes first. -/
def news (codes : List String) : List String → List String
  | [] => []
  | code :: rest =>
    if codes.contains code then news codes rest else code :: news (codes ++ [code]) rest

theorem appendNew_eq_append_news (codes more : List String) :
    appendNew codes more = codes ++ news codes more := by
  fun_induction appendNew codes more with
  | case1 codes => exact (List.append_nil codes).symm
  | case2 codes first rest known ih => rw [ih, news, if_pos known]
  | case3 codes first rest unknown ih =>
      rw [ih, news, if_neg unknown, List.append_assoc, List.singleton_append]

theorem mem_news_iff {codes more : List String} {code : String} :
    code ∈ news codes more ↔ code ∉ codes ∧ code ∈ more := by
  fun_induction news codes more with
  | case1 codes => simp
  | case2 codes first rest known ih =>
      have isKnown : first ∈ codes := List.contains_iff_mem.mp known
      rw [ih, List.mem_cons]
      grind
  | case3 codes first rest unknown ih =>
      have isUnknown : first ∉ codes := fun known => unknown (List.contains_iff_mem.mpr known)
      rw [List.mem_cons, ih, List.mem_append, List.mem_singleton, List.mem_cons]
      grind

theorem nodup_news (codes more : List String) : (news codes more).Nodup := by
  fun_induction news codes more with
  | case1 codes => exact List.nodup_nil
  | case2 codes first rest _ ih => exact ih
  | case3 codes first rest _ ih =>
      refine List.nodup_cons.mpr ⟨fun again => ?_, ih⟩
      exact (mem_news_iff.mp again).1 (List.mem_append_right codes (List.mem_singleton_self first))

theorem news_eq_nil {codes more : List String} (known : ∀ code ∈ more, code ∈ codes) :
    news codes more = [] :=
  List.eq_nil_iff_forall_not_mem.mpr fun code member =>
    (mem_news_iff.mp member).1 (known code (mem_news_iff.mp member).2)

/-- Different codes that are all new are news as they are. -/
theorem news_eq_self {codes more : List String} (distinct : more.Nodup)
    (unknown : ∀ code ∈ more, code ∉ codes) : news codes more = more := by
  induction more generalizing codes with
  | nil => rfl
  | cons first rest ih =>
      obtain ⟨absent, distinct⟩ := List.nodup_cons.mp distinct
      have isNew : ¬ codes.contains first = true :=
        fun known => unknown first List.mem_cons_self (List.contains_iff_mem.mp known)
      rw [news, if_neg isNew, ih distinct]
      intro code member known
      rcases List.mem_append.mp known with isKnown | same
      · exact unknown code (List.mem_cons_of_mem first member) isKnown
      · exact absent (List.mem_singleton.mp same ▸ member)

theorem nodup_appendNew {codes : List String} (distinct : codes.Nodup) (more : List String) :
    (appendNew codes more).Nodup := by
  rw [appendNew_eq_append_news]
  refine List.nodup_append.mpr ⟨distinct, nodup_news codes more, ?_⟩
  rintro code isCode _ isNew rfl
  exact (mem_news_iff.mp isNew).1 isCode

/-- No language of a header is listed twice. -/
theorem nodup_parse (header : String) : (parse header).Nodup :=
  nodup_appendNew (nodup_appendNew List.nodup_nil _) _

theorem mem_parse_iff {header code : String} :
    code ∈ parse header ↔
      ∃ entry ∈ ranked header, entry.code = code ∨ base? entry.code = some code := by
  simp only [parse, mem_appendNew_iff, List.not_mem_nil, false_or, List.mem_filterMap,
    List.mem_map]
  constructor
  · rintro (⟨entry, member, same⟩ | ⟨_, ⟨entry, member, rfl⟩, base⟩)
    · exact ⟨entry, member, Or.inl same⟩
    · exact ⟨entry, member, Or.inr base⟩
  · rintro ⟨entry, member, same | base⟩
    · exact Or.inl ⟨entry, member, same⟩
    · exact Or.inr ⟨entry.code, ⟨entry, member, rfl⟩, base⟩

/-- What is before the first hyphen has only characters of the code. -/
theorem mem_of_mem_base? {code base : String} (found : base? code = some base) {c : Char}
    (member : c ∈ base.toList) : c ∈ code.toList := by
  obtain ⟨⟨before, after⟩, cut, rfl⟩ := Option.map_eq_some_iff.mp found
  rw [Text.eq_of_cut? cut]
  rw [String.toList_ofList] at member
  exact List.mem_append_left _ member

/-- No language of a header has an underscore. -/
theorem underscore_not_mem_of_mem_parse {header code : String} (member : code ∈ parse header) :
    '_' ∉ code.toList := by
  obtain ⟨entry, isEntry, reached⟩ := mem_parse_iff.mp member
  obtain ⟨part, _, found⟩ := mem_ranked_iff.mp isEntry
  obtain ⟨spelled, same⟩ := exists_normalize_of_weighted? found
  have none : '_' ∉ entry.code.toList := same ▸ underscore_not_mem_normalize spelled
  rcases reached with rfl | base
  · exact none
  · exact fun underscore => none (mem_of_mem_base? base underscore)

/-- A header that is nothing but a code puts it first. -/
theorem exists_parse_of_plain {code : String} (single : ',' ∉ code.toList)
    (noParameter : ';' ∉ code.toList) (named : normalize code.toList ≠ "")
    (notAny : normalize code.toList ≠ "*") :
    ∃ more, parse code = normalize code.toList :: more := by
  have entries : ranked code = [⟨normalize code.toList, fullWeight⟩] := by
    rw [ranked, Text.pieces_of_not_mem single,
      List.filterMap_cons_some (weighted?_of_plain noParameter named notAny), List.filterMap_nil]
    exact List.mergeSort_singleton _
  obtain ⟨more, whole⟩ := prefix_appendNew [normalize code.toList]
    ([normalize code.toList].filterMap base?)
  refine ⟨more, ?_⟩
  rw [parse, entries]
  exact whole.symm

end Gazetteer.Language
