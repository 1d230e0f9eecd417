import Gazetteer.Proofs.Language.Entries
import Mathlib.Data.List.Nodup
import Mathlib.Data.List.Sort

/-!
# The order of languages

The languages of a header are its codes, the heaviest first, and then their bases.  A code
stands where its best entry puts it: the first of those that give it its highest weight.
Sorting brings that entry to the front of all entries of the code, because it keeps entries of
one weight in their order, and what comes later of the same code is passed over.  The bases
stand in the order of the codes that they come from, so each stands where the best entry of
all its codes puts it.
-/

namespace Gazetteer.Language

open Decimal (binary32)

variable {header code base : String}

/-! ## The order -/

/-- The entry at a position is the first one that gives a code its highest weight. -/
structure IsBest (header code : String) (weight : EReal) (position : Nat) : Prop where
  given : ∃ entry, (entries header)[position]? = some entry ∧ entry.Gives code weight
  highest : ∀ entry ∈ entries header, ∀ other, entry.Gives code other → other ≤ weight
  first : ∀ earlier < position, ∀ entry, (entries header)[earlier]? = some entry →
    ¬ entry.Gives code weight

/-- A code comes before another one by its highest weight, and by the position of the first
entry with that weight where the weights are equal. -/
def Precedes (header first second : String) : Prop :=
  ∃ weight position lower place, IsBest header first weight position ∧
    IsBest header second lower place ∧
      (lower < weight ∨ lower = weight ∧ position < place)

/-- The codes and the bases that make up the languages of a header in their order. -/
structure IsPreference (header : String) (codes bases : List String) : Prop where
  nodup : (codes ++ bases).Nodup
  mem_codes : ∀ code, code ∈ codes ↔ Accepts header code
  codesInOrder : codes.Pairwise (Precedes header)
  mem_bases : ∀ base, base ∈ bases ↔ base ∉ codes ∧ ∃ code ∈ codes, IsBase base code
  /-- Some code of the first base comes before all codes of the second. -/
  basesInOrder : bases.Pairwise fun first second =>
    ∃ code ∈ codes, IsBase first code ∧
      ∀ other ∈ codes, IsBase second other → Precedes header code other

theorem IsBest.unique {weight lower : EReal} {position place : Nat}
    (isBest : IsBest header code weight position) (alsoBest : IsBest header code lower place) :
    weight = lower ∧ position = place := by
  obtain ⟨entry, found, gives⟩ := isBest.given
  obtain ⟨other, foundToo, givesToo⟩ := alsoBest.given
  obtain rfl : weight = lower := le_antisymm
    (alsoBest.highest entry (List.mem_of_getElem? found) weight gives)
    (isBest.highest other (List.mem_of_getElem? foundToo) lower givesToo)
  refine ⟨rfl, le_antisymm (not_lt.mp fun later => ?_) (not_lt.mp fun later => ?_)⟩
  · exact isBest.first place later other foundToo givesToo
  · exact alsoBest.first position later entry found gives

theorem Precedes.asymm {first second : String} (before : Precedes header first second) :
    ¬ Precedes header second first := by
  rintro ⟨weight, position, lower, place, isSecond, isFirst, after⟩
  obtain ⟨_, _, _, _, isFirstToo, isSecondToo, before⟩ := before
  obtain ⟨rfl, rfl⟩ := isFirst.unique isFirstToo
  obtain ⟨rfl, rfl⟩ := isSecond.unique isSecondToo
  rcases before with less | ⟨rfl, less⟩
  · rcases after with more | ⟨rfl, _⟩
    · exact less.asymm more
    · exact less.false
  · rcases after with more | ⟨_, more⟩
    · exact more.false
    · exact less.asymm more

/-- A header has one order of languages. -/
theorem IsPreference.unique {codes bases others more : List String}
    (isPreference : IsPreference header codes bases)
    (alsoPreference : IsPreference header others more) : codes = others ∧ bases = more := by
  obtain rfl : codes = others := by
    refine List.Perm.eq_of_pairwise (fun first second _ _ before after => ?_)
      isPreference.codesInOrder alsoPreference.codesInOrder ?_
    · exact absurd after before.asymm
    · rw [List.perm_ext_iff_of_nodup (List.nodup_append.mp isPreference.nodup).1
        (List.nodup_append.mp alsoPreference.nodup).1]
      intro code
      rw [isPreference.mem_codes, alsoPreference.mem_codes]
  refine ⟨rfl, ?_⟩
  refine List.Perm.eq_of_pairwise (fun first second _ _ before after => ?_)
    isPreference.basesInOrder alsoPreference.basesInOrder ?_
  · obtain ⟨code, member, isBase, before⟩ := before
    obtain ⟨other, memberToo, isBaseToo, after⟩ := after
    exact absurd (after code member isBase) (before other memberToo isBaseToo).asymm
  · rw [List.perm_ext_iff_of_nodup (List.nodup_append.mp isPreference.nodup).2.1
      (List.nodup_append.mp alsoPreference.nodup).2.1]
    intro base
    rw [isPreference.mem_bases, alsoPreference.mem_bases]

/-! ## Sorting and passing over -/

section Lists

variable {α : Type} {before : α → α → Prop} {list : List α}

/-- Sorting keeps elements that rank alike in their order. -/
theorem pairwise_mergeSort_stable (le : α → α → Bool)
    (trans : ∀ first second third, le first second = true → le second third = true →
      le first third = true)
    (total : ∀ first second, (le first second || le second first) = true)
    (ordered : list.Pairwise before) :
    (list.mergeSort le).Pairwise fun first second =>
      le first second = true ∧ (le second first = true → before first second) := by
  have sorted := List.pairwise_mergeSort trans total list
  rw [List.pairwise_iff_forall_sublist]
  intro first second sub
  have inOrder := List.pairwise_iff_forall_sublist.mp sorted sub
  refine ⟨inOrder, fun level => ?_⟩
  -- all elements that rank like the two are kept in their order
  let alike (element : α) : Bool := le first element && le element first
  have kept : (list.filter alike).Sublist (list.mergeSort le) := by
    refine List.sublist_mergeSort trans total ?_ List.filter_sublist
    refine List.pairwise_filter.mpr (List.pairwise_of_forall fun one other isOne isOther => ?_)
    exact trans _ _ _ (Bool.and_eq_true_iff.mp isOne).2 (Bool.and_eq_true_iff.mp isOther).1
  have same : list.filter alike = (list.mergeSort le).filter alike := by
    refine List.Sublist.eq_of_length ?_
      ((List.mergeSort_perm list le).filter alike).length_eq.symm
    simpa using kept.filter alike
  have reflexive : le first first = true := by simpa using total first first
  have among : [first, second].Sublist (list.filter alike) := by
    rw [same]
    simpa [alike, reflexive, inOrder, level] using sub.filter alike
  exact List.pairwise_iff_forall_sublist.mp ordered (among.trans List.filter_sublist)

/-- The first element with a property comes before all others with it. -/
theorem eq_or_before_of_find? {holds : α → Bool} {first element : α}
    (ordered : list.Pairwise before) (found : list.find? holds = some first)
    (member : element ∈ list) (isOne : holds element = true) :
    element = first ∨ before first element := by
  obtain ⟨_, front, rest, rfl, none⟩ := List.find?_eq_some_iff_append.mp found
  rcases List.mem_append.mp member with inFront | behind
  · have isNone := none element inFront
    rw [isOne] at isNone
    contradiction
  · rcases List.mem_cons.mp behind with same | later
    · exact Or.inl same
    · have ordered := (List.pairwise_append.mp ordered).2.1
      exact Or.inr ((List.pairwise_cons.mp ordered).1 element later)

variable {f : α → Option String} {code : String}

/-- The first element of a list that brings a code. -/
def bringer? (f : α → Option String) (list : List α) (code : String) : Option α :=
  list.find? fun element => f element = some code

theorem exists_bringer?_of_mem (member : code ∈ list.filterMap f) :
    ∃ element, bringer? f list code = some element := by
  obtain ⟨element, member, brings⟩ := List.mem_filterMap.mp member
  exact Option.isSome_iff_exists.mp
    (List.find?_isSome.mpr ⟨element, member, decide_eq_true brings⟩)

/-- What the head of a list does not bring is brought first by the rest. -/
theorem bringer?_cons_of_mem_news {head : α} {codes : List String}
    (known : ∀ code ∈ f head, code ∈ codes) (member : code ∈ news codes (list.filterMap f)) :
    bringer? f (head :: list) code = bringer? f list code := by
  refine List.find?_cons_of_neg fun isHead => ?_
  exact (mem_news_iff.mp member).1 (known code (of_decide_eq_true isHead))

/-- News come in the order of the elements that bring them first. -/
theorem pairwise_news (ordered : list.Pairwise before) (codes : List String) :
    (news codes (list.filterMap f)).Pairwise fun code other =>
      ∃ first ∈ bringer? f list code, ∃ second ∈ bringer? f list other, before first second := by
  induction list generalizing codes with
  | nil => exact List.Pairwise.nil
  | cons head rest ih =>
      obtain ⟨ahead, ordered⟩ := List.pairwise_cons.mp ordered
      have later {known : List String} (brought : ∀ code ∈ f head, code ∈ known) :
          (news known (rest.filterMap f)).Pairwise fun code other =>
            ∃ first ∈ bringer? f (head :: rest) code,
              ∃ second ∈ bringer? f (head :: rest) other, before first second := by
        refine (ih ordered known).imp_of_mem fun isCode isOther found => ?_
        rw [bringer?_cons_of_mem_news brought isCode, bringer?_cons_of_mem_news brought isOther]
        exact found
      cases brings : f head with
      | none =>
          rw [List.filterMap_cons_none brings]
          exact later (by simp [brings])
      | some code =>
          rw [List.filterMap_cons_some brings, news]
          split
          · rename_i known
            exact later (by simpa [brings] using known)
          · have brought : ∀ own ∈ f head, own ∈ codes ++ [code] := by simp [brings]
            refine List.pairwise_cons.mpr ⟨fun other isNew => ?_, later brought⟩
            obtain ⟨second, found⟩ := exists_bringer?_of_mem (mem_news_iff.mp isNew).2
            refine ⟨head, List.find?_cons_of_pos (decide_eq_true brings), second, ?_,
              ahead second (List.mem_of_find?_eq_some found)⟩
            rw [bringer?_cons_of_mem_news brought isNew]
            exact found

end Lists

/-! ## The entries in their order -/

/-- The entries of a header that are ranked, with their positions. -/
def placed (header : String) : List (Weighted × Nat) :=
  (Text.pieces ',' header.toList).zipIdx.filterMap fun part =>
    (weighted? part.1).map fun entry => (entry, part.2)

/-- The entries in the order of the ranking, with their positions. -/
def standing (header : String) : List (Weighted × Nat) :=
  (placed header).mergeSort fun first second => second.1.weight ≤ first.1.weight

/-- One entry outranks another by its weight, and by its position at the same weight. -/
def Outranks (first second : Weighted × Nat) : Prop :=
  second.1.weight < first.1.weight ∨
    second.1.weight = first.1.weight ∧ first.2 < second.2

theorem mem_standing_iff {entry : Weighted} {position : Nat} :
    (entry, position) ∈ standing header ↔
      ∃ part, (Text.pieces ',' header.toList)[position]? = some part ∧
        weighted? part = some entry := by
  simp only [standing, placed, List.mem_mergeSort, List.mem_filterMap, Prod.exists,
    List.mk_mem_zipIdx_iff_getElem?, Option.map_eq_some_iff, Prod.mk.injEq]
  constructor
  · rintro ⟨part, _, found, _, isRanked, rfl, rfl⟩
    exact ⟨part, found, isRanked⟩
  · rintro ⟨part, found, isRanked⟩
    exact ⟨part, position, found, entry, isRanked, rfl, rfl⟩

theorem map_fst_standing (header : String) : (standing header).map Prod.fst = ranked header := by
  have entries : (placed header).map Prod.fst =
      (Text.pieces ',' header.toList).filterMap weighted? := by
    rw [placed, List.map_filterMap]
    conv_rhs => rw [← List.zipIdx_map_fst 0 (Text.pieces ',' header.toList), List.filterMap_map]
    congr 1
    funext part
    simp [Function.comp_def]
  rw [standing, ranked, ← entries]
  exact List.map_mergeSort fun _ _ _ _ => rfl

theorem pairwise_placed (header : String) :
    (placed header).Pairwise fun first second => first.2 < second.2 := by
  have positions : (Text.pieces ',' header.toList).zipIdx.Pairwise
      fun first second => first.2 < second.2 := by
    rw [← List.pairwise_map (R := (· < ·)), List.zipIdx_map_snd]
    exact List.pairwise_lt_range'
  rw [placed, List.pairwise_filterMap]
  refine positions.imp fun less entry isEntry other isOther => ?_
  obtain ⟨_, _, rfl⟩ := Option.map_eq_some_iff.mp isEntry
  obtain ⟨_, _, rfl⟩ := Option.map_eq_some_iff.mp isOther
  exact less

theorem pairwise_standing (header : String) : (standing header).Pairwise Outranks := by
  have stable := pairwise_mergeSort_stable
    (fun first second : Weighted × Nat => second.1.weight ≤ first.1.weight)
    (by simp; omega) (by simp; omega) (pairwise_placed header)
  refine stable.imp fun {first second} kept => ?_
  simp only [decide_eq_true_eq] at kept
  rcases Nat.lt_or_eq_of_le kept.1 with less | same
  · exact Or.inl less
  · exact Or.inr ⟨same, kept.2 same.ge⟩

/-- The code of an entry with its position. -/
def codeOf (placement : Weighted × Nat) : Option String :=
  some placement.1.code

/-- The entries that give a code a weight are those that stand for it in the ranking. -/
theorem exists_mem_standing_iff {weight : EReal} {position : Nat} :
    (∃ entry, (entries header)[position]? = some entry ∧ entry.Gives code weight) ↔
      ∃ pattern, ((⟨code, pattern⟩, position) : Weighted × Nat) ∈ standing header ∧
        binary32.magnitude pattern = weight := by
  simp only [mem_standing_iff, entries, List.getElem?_map, Option.map_eq_some_iff]
  constructor
  · rintro ⟨_, ⟨part, found, rfl⟩, gives⟩
    obtain ⟨pattern, isRanked, same⟩ := gives_ofPart_iff.mp gives
    exact ⟨pattern, ⟨part, found, isRanked⟩, same⟩
  · rintro ⟨pattern, ⟨part, found, isRanked⟩, same⟩
    exact ⟨_, ⟨part, found, rfl⟩, gives_ofPart_iff.mpr ⟨pattern, isRanked, same⟩⟩

theorem weight_mem_Iic {placement : Weighted × Nat} (member : placement ∈ standing header) :
    placement.1.weight ∈ Set.Iic binary32.infinity := by
  obtain ⟨part, _, isRanked⟩ := mem_standing_iff.mp member
  exact weight_le_infinity isRanked

/-- The entry that brings a code first is its best. -/
theorem isBest_of_bringer? {best : Weighted × Nat}
    (found : bringer? codeOf (standing header) code = some best) :
    IsBest header code (binary32.magnitude best.1.weight) best.2 := by
  have member := List.mem_of_find?_eq_some found
  obtain ⟨⟨own, weight⟩, position⟩ := best
  have brings := List.find?_some found
  obtain rfl : own = code := Option.some.inj (of_decide_eq_true brings)
  have others {pattern place : Nat}
      (standing : ((⟨own, pattern⟩, place) : Weighted × Nat) ∈ standing header) :
      ((⟨own, pattern⟩, place) : Weighted × Nat) = (⟨own, weight⟩, position) ∨
        Outranks (⟨own, weight⟩, position) (⟨own, pattern⟩, place) :=
    eq_or_before_of_find? (pairwise_standing header) found standing (decide_eq_true rfl)
  have monotone := binary32.magnitude_strictMonoOn
  constructor
  · exact exists_mem_standing_iff.mpr ⟨weight, member, rfl⟩
  · intro entry isEntry other gives
    obtain ⟨place, isPlace⟩ := List.mem_iff_getElem?.mp isEntry
    obtain ⟨pattern, stands, rfl⟩ := exists_mem_standing_iff.mp ⟨entry, isPlace, gives⟩
    refine monotone.monotoneOn (weight_mem_Iic stands) (weight_mem_Iic member) ?_
    rcases others stands with same | less | ⟨same, _⟩
    · cases same
      exact le_rfl
    · exact le_of_lt less
    · exact le_of_eq same
  · intro earlier isEarlier entry isPlace gives
    obtain ⟨pattern, stands, same⟩ := exists_mem_standing_iff.mp ⟨entry, isPlace, gives⟩
    have level : pattern = weight :=
      monotone.injOn (weight_mem_Iic stands) (weight_mem_Iic member) same
    rcases others stands with own | less | ⟨_, behind⟩
    · cases own
      exact isEarlier.false
    · exact less.ne level
    · exact isEarlier.asymm behind

/-! ## The languages -/

theorem precedes_of_outranks {first second : Weighted × Nat} {other : String}
    (isFirst : bringer? codeOf (standing header) code = some first)
    (isSecond : bringer? codeOf (standing header) other = some second)
    (before : Outranks first second) : Precedes header code other := by
  refine ⟨_, _, _, _, isBest_of_bringer? isFirst, isBest_of_bringer? isSecond, ?_⟩
  refine before.imp (fun less => ?_) fun ⟨same, less⟩ => ⟨by rw [same], less⟩
  exact binary32.magnitude_strictMonoOn (weight_mem_Iic (List.mem_of_find?_eq_some isSecond))
    (weight_mem_Iic (List.mem_of_find?_eq_some isFirst)) less

theorem Outranks.trans {first second third : Weighted × Nat} (before : Outranks first second)
    (after : Outranks second third) : Outranks first third := by
  unfold Outranks at *
  omega

/-- The base of the code of an entry with its position. -/
def baseOf (placement : Weighted × Nat) : Option String :=
  base? placement.1.code

/-- The codes of a header, each where its best entry puts it. -/
def rankedCodes (header : String) : List String :=
  news [] ((standing header).filterMap codeOf)

/-- The bases of these codes that are not among them. -/
def rankedBases (header : String) : List String :=
  news (rankedCodes header) ((standing header).filterMap baseOf)

theorem parse_eq_append (header : String) :
    parse header = rankedCodes header ++ rankedBases header := by
  have codes : (ranked header).map Weighted.code = (standing header).filterMap codeOf := by
    rw [← map_fst_standing, List.map_map, ← List.filterMap_eq_map]
    rfl
  have bases : ((ranked header).map Weighted.code).filterMap base? =
      (standing header).filterMap baseOf := by
    rw [← map_fst_standing, List.map_map, List.filterMap_map]
    rfl
  rw [parse, bases, codes, appendNew_eq_append_news, appendNew_eq_append_news, List.nil_append,
    rankedBases, rankedCodes]

theorem mem_rankedCodes_iff :
    code ∈ rankedCodes header ↔ ∃ placement ∈ standing header, placement.1.code = code := by
  simp [rankedCodes, mem_news_iff, codeOf]

theorem mem_rankedCodes_iff_accepts : code ∈ rankedCodes header ↔ Accepts header code := by
  rw [mem_rankedCodes_iff, accepts_iff, ← map_fst_standing]
  simp

theorem mem_rankedBases_iff :
    base ∈ rankedBases header ↔
      base ∉ rankedCodes header ∧ ∃ code ∈ rankedCodes header, IsBase base code := by
  simp only [rankedBases, mem_news_iff, mem_rankedCodes_iff, List.mem_filterMap, baseOf,
    base?_eq_some_iff]
  refine and_congr_right fun _ => ?_
  constructor
  · rintro ⟨placement, member, isBase⟩
    exact ⟨_, ⟨placement, member, rfl⟩, isBase⟩
  · rintro ⟨_, ⟨placement, member, rfl⟩, isBase⟩
    exact ⟨placement, member, isBase⟩

/-- The entry that brings a base first brings its own code first. -/
theorem bringer?_codeOf_of_baseOf {first : Weighted × Nat}
    (found : bringer? baseOf (standing header) base = some first) :
    bringer? codeOf (standing header) first.1.code = some first := by
  obtain ⟨brings, front, rest, whole, none⟩ := List.find?_eq_some_iff_append.mp found
  refine List.find?_eq_some_iff_append.mpr
    ⟨decide_eq_true rfl, front, rest, whole, fun earlier member => ?_⟩
  have apart := none earlier member
  simp only [Bool.not_eq_true', decide_eq_false_iff_not] at apart ⊢
  intro same
  apply apart
  rw [← of_decide_eq_true brings, baseOf, baseOf, Option.some.inj same]

/-- The code that brings a base first comes before all codes of the bases behind it. -/
theorem pairwise_rankedBases (header : String) :
    (rankedBases header).Pairwise fun first second =>
      ∃ code ∈ rankedCodes header, IsBase first code ∧
        ∀ other ∈ rankedCodes header, IsBase second other → Precedes header code other := by
  have ordered := pairwise_standing header
  refine (pairwise_news ordered _).imp ?_
  rintro base other ⟨first, isFirst, second, isSecond, before⟩
  have brings := List.find?_some isFirst
  refine ⟨first.1.code,
    mem_rankedCodes_iff.mpr ⟨first, List.mem_of_find?_eq_some isFirst, rfl⟩,
    base?_eq_some_iff.mp (of_decide_eq_true brings), fun regional isCode isBase => ?_⟩
  -- the best entry of any code of the second base does not come before the second entry
  obtain ⟨best, isBest⟩ := exists_bringer?_of_mem (mem_news_iff.mp isCode).2
  have regionalBrings := List.find?_some isBest
  have isOther : baseOf best = some other := by
    rw [baseOf, Option.some.inj (of_decide_eq_true regionalBrings)]
    exact base?_eq_some_iff.mpr isBase
  refine precedes_of_outranks (bringer?_codeOf_of_baseOf isFirst) isBest ?_
  rcases eq_or_before_of_find? ordered isSecond (List.mem_of_find?_eq_some isBest)
    (decide_eq_true isOther) with rfl | behind
  · exact before
  · exact before.trans behind

theorem isPreference_parse (header : String) :
    IsPreference header (rankedCodes header) (rankedBases header) := by
  constructor
  · exact parse_eq_append header ▸ nodup_parse header
  · exact fun code => mem_rankedCodes_iff_accepts
  · exact (pairwise_news (pairwise_standing header) []).imp
      fun ⟨_, isFirst, _, isSecond, before⟩ => precedes_of_outranks isFirst isSecond before
  · exact fun base => mem_rankedBases_iff
  · exact pairwise_rankedBases header

/-- The languages of a header are its codes in their order, and then their bases in the order
of the codes that they come from; and no other list is. -/
theorem parse_eq_iff_isPreference (header : String) (languages : List String) :
    parse header = languages ↔
      ∃ codes bases, languages = codes ++ bases ∧ IsPreference header codes bases := by
  constructor
  · rintro rfl
    exact ⟨_, _, parse_eq_append header, isPreference_parse header⟩
  · rintro ⟨codes, bases, rfl, isPreference⟩
    obtain ⟨rfl, rfl⟩ := (isPreference_parse header).unique isPreference
    exact parse_eq_append header

end Gazetteer.Language
