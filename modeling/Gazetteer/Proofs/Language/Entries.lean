import Gazetteer.Proofs.Decimal.Order
import Gazetteer.Proofs.Language

/-!
# The entries of a header

What a header says is a list of entries: each gives its code a weight, a number as it is read in
single precision, unless that is undefined.  An entry counts if its code is neither nothing nor
everything and its weight is positive.  The codes with an entry that counts are the ones that
are ranked, and the languages of a header are these codes and what is in front of their first
hyphens.
-/

namespace Gazetteer.Language

open Decimal (binary32)

/-- One entry of a header: the text in front of its first semicolon, and its weight. -/
structure Entry where
  text : List Char
  /-- The weight, unless it is undefined. -/
  weight : Option EReal

namespace Entry

/-- What a part of a header says.  The first parameter that can be read decides about the
weight, which is one if there is none. -/
noncomputable def ofPart (part : List Char) : Entry where
  text := part.takeWhile (· ≠ ';')
  weight :=
    match (Text.pieces ';' part).tail.findSome? weightParameter? with
    | some reading => binary32.number? reading
    | none => some 1

/-- The code of an entry in its one spelling. -/
def code (entry : Entry) : String :=
  normalize entry.text

/-- An entry that counts: it gives a code a positive weight. -/
structure Gives (entry : Entry) (code : String) (weight : EReal) : Prop where
  spelled : entry.code = code
  named : code ≠ ""
  special : code ≠ "*"
  weighs : entry.weight = some weight
  positive : 0 < weight

end Entry

/-- The entries of a header, in their order. -/
noncomputable def entries (header : String) : List Entry :=
  (Text.pieces ',' header.toList).map Entry.ofPart

/-- Some entry of a header gives the code a positive weight. -/
def Accepts (header code : String) : Prop :=
  ∃ entry ∈ entries header, ∃ weight, entry.Gives code weight

/-- `base` is what is in front of the first hyphen of `code`. -/
structure IsBase (base code : String) : Prop where
  whole : ∃ rest, code = base ++ "-" ++ rest
  first : '-' ∉ base.toList

/-! ## Weights -/

theorem exists_positive?_iff {reading : Decimal.Reading} {weight : EReal} :
    (∃ pattern, positive? reading = some pattern ∧ binary32.magnitude pattern = weight) ↔
      binary32.number? reading = some weight ∧ 0 < weight := by
  have finite : 0 < binary32.infinity := by decide
  cases reading with
  | notANumber => simp [positive?, Decimal.Format.number?]
  | magnitude negative pattern =>
      cases negative with
      | false =>
          simp only [positive?, Decimal.Format.number?, Bool.false_eq_true, if_false,
            Option.some.injEq, Option.ite_none_right_eq_some]
          constructor
          · rintro ⟨_, ⟨positive, rfl⟩, rfl⟩
            exact ⟨rfl, (Decimal.Format.magnitude_pos_iff finite).mpr positive⟩
          · rintro ⟨rfl, positive⟩
            exact ⟨pattern, ⟨(Decimal.Format.magnitude_pos_iff finite).mp positive, rfl⟩, rfl⟩
      | true =>
          have nonneg := Decimal.Format.magnitude_nonneg finite pattern
          simp only [positive?, Decimal.Format.number?, if_true, Option.some.injEq]
          constructor
          · rintro ⟨_, nothing, _⟩
            contradiction
          · rintro ⟨rfl, positive⟩
            exact absurd positive (not_lt.mpr (EReal.neg_le_zero.mpr nonneg))

theorem exists_weight?_iff {parameters : List (List Char)} {weight : EReal} :
    (∃ pattern, weight? parameters = some pattern ∧ binary32.magnitude pattern = weight) ↔
      (match parameters.findSome? weightParameter? with
        | some reading => binary32.number? reading
        | none => some 1) = some weight ∧ 0 < weight := by
  unfold weight?
  cases parameters.findSome? weightParameter? with
  | some reading => exact exists_positive?_iff
  | none =>
      simp only [fullWeight, Option.some.injEq]
      constructor
      · rintro ⟨_, rfl, rfl⟩
        rw [Decimal.Format.magnitude_one]
        exact ⟨rfl, zero_lt_one⟩
      · rintro ⟨rfl, _⟩
        exact ⟨_, rfl, Decimal.Format.magnitude_one⟩

/-- A part of a header is ranked exactly if the entry in it counts. -/
theorem gives_ofPart_iff {part : List Char} {code : String} {weight : EReal} :
    (Entry.ofPart part).Gives code weight ↔
      ∃ pattern, weighted? part = some ⟨code, pattern⟩ ∧
        binary32.magnitude pattern = weight := by
  obtain ⟨first, parameters, cut⟩ := List.exists_cons_of_ne_nil (Text.pieces_ne_nil ';' part)
  have inFront : part.takeWhile (· ≠ ';') = first := by
    have head := Text.head?_pieces ';' part
    rw [cut] at head
    exact (Option.some.inj head).symm
  have spelled : (Entry.ofPart part).code = normalize first := congrArg normalize inFront
  have weighs : (∃ pattern, weight? parameters = some pattern ∧
      binary32.magnitude pattern = weight) ↔
        (Entry.ofPart part).weight = some weight ∧ 0 < weight := by
    rw [exists_weight?_iff, Entry.ofPart, cut]
    rfl
  constructor
  · rintro ⟨rfl, named, special, isWeight, positive⟩
    obtain ⟨pattern, found, same⟩ := weighs.mpr ⟨isWeight, positive⟩
    refine ⟨pattern, ?_, same⟩
    rw [spelled] at named special ⊢
    simp [weighted?, cut, named, special, found]
  · rintro ⟨pattern, found, same⟩
    simp only [weighted?, cut] at found
    obtain ⟨ordinary, found⟩ := Option.ite_none_left_eq_some.mp found
    obtain ⟨named, special⟩ := not_or.mp ordinary
    obtain ⟨_, isPattern, made⟩ := Option.map_eq_some_iff.mp found
    obtain ⟨rfl, rfl⟩ := Weighted.mk.inj made
    obtain ⟨isWeight, positive⟩ := weighs.mp ⟨_, isPattern, same⟩
    exact ⟨spelled, named, special, isWeight, positive⟩

theorem exists_read_of_weightParameter? {parameter : List Char} {reading : Decimal.Reading}
    (found : weightParameter? parameter = some reading) :
    ∃ text, binary32.read text = .ok reading := by
  obtain ⟨value, _, isReading⟩ := Option.bind_eq_some_iff.mp found
  refine ⟨String.ofList (Text.trimChars value), ?_⟩
  cases outcome : binary32.read (String.ofList (Text.trimChars value)) with
  | error fault =>
      rw [outcome] at isReading
      contradiction
  | ok other =>
      rw [outcome] at isReading
      exact congrArg Except.ok (Option.some.inj isReading)

theorem weight?_le_infinity {parameters : List (List Char)} {pattern : Nat}
    (found : weight? parameters = some pattern) : pattern ≤ binary32.infinity := by
  unfold weight? at found
  split at found
  · rename_i reading decides
    obtain ⟨parameter, _, isReading⟩ := List.exists_of_findSome?_eq_some decides
    obtain ⟨text, read⟩ := exists_read_of_weightParameter? isReading
    unfold positive? at found
    split at found
    · obtain ⟨_, same⟩ := Option.ite_none_right_eq_some.mp found
      cases same
      exact Decimal.Format.read_le read
    · contradiction
  · rw [← Option.some.inj found]
    exact Decimal.Format.nearest_le ..

theorem weight_le_infinity {part : List Char} {entry : Weighted}
    (found : weighted? part = some entry) : entry.weight ≤ binary32.infinity := by
  unfold weighted? at found
  split at found
  · contradiction
  · rename_i code parameters _
    obtain ⟨_, found⟩ := Option.ite_none_left_eq_some.mp found
    obtain ⟨pattern, isPattern, rfl⟩ := Option.map_eq_some_iff.mp found
    exact weight?_le_infinity isPattern

/-! ## Codes -/

theorem accepts_iff {header code : String} :
    Accepts header code ↔ ∃ entry ∈ ranked header, entry.code = code := by
  constructor
  · rintro ⟨_, member, weight, gives⟩
    obtain ⟨part, isPart, rfl⟩ := List.mem_map.mp member
    obtain ⟨pattern, found, _⟩ := gives_ofPart_iff.mp gives
    exact ⟨_, mem_ranked_iff.mpr ⟨part, isPart, found⟩, rfl⟩
  · rintro ⟨entry, member, rfl⟩
    obtain ⟨part, member, found⟩ := mem_ranked_iff.mp member
    exact ⟨_, List.mem_map_of_mem member, _, gives_ofPart_iff.mpr ⟨_, found, rfl⟩⟩

theorem base?_eq_some_iff {code base : String} : base? code = some base ↔ IsBase base code := by
  simp only [base?, Option.map_eq_some_iff, Prod.exists, Text.cut?_eq_some_iff]
  constructor
  · rintro ⟨before, after, ⟨whole, first⟩, rfl⟩
    refine ⟨⟨String.ofList after, ?_⟩, by rwa [String.toList_ofList]⟩
    rw [← String.toList_inj, whole]
    simp
  · rintro ⟨⟨rest, rfl⟩, first⟩
    exact ⟨base.toList, rest.toList, ⟨by simp, first⟩, String.ofList_toList⟩

/-- The languages of a header are the codes that it accepts and their bases. -/
theorem mem_parse_iff_accepts {header code : String} :
    code ∈ parse header ↔
      Accepts header code ∨ ∃ regional, Accepts header regional ∧ IsBase code regional := by
  simp only [mem_parse_iff, accepts_iff, base?_eq_some_iff]
  constructor
  · rintro ⟨entry, member, same | isBase⟩
    · exact Or.inl ⟨entry, member, same⟩
    · exact Or.inr ⟨entry.code, ⟨entry, member, rfl⟩, isBase⟩
  · rintro (⟨entry, member, same⟩ | ⟨_, ⟨entry, member, rfl⟩, isBase⟩)
    · exact ⟨entry, member, Or.inl same⟩
    · exact ⟨entry, member, Or.inr isBase⟩

end Gazetteer.Language
