import Gazetteer.Proofs.Language.Entries

/-!
# Languages that are not wanted

An entry of a header may name no language or any language, and a weight of zero refuses the one
that it names.  No such language is a code that the header accepts.  But the bases of the codes
that it does accept become languages of the header without a look at what is wanted: a refused
language comes back behind its regional codes.
-/

namespace Gazetteer.Language

open Decimal (binary32)

variable {header code : String}

/-- A header refuses a code that it lists with weight zero only. -/
structure Refuses (header code : String) : Prop where
  listed : ∃ entry ∈ entries header, entry.code = code
  weightless : ∀ entry ∈ entries header, entry.code = code → entry.weight = some 0

/-- A language that should stay out: none, any, or one that the header refuses. -/
def Unwanted (header code : String) : Prop :=
  code = "" ∨ code = "*" ∨ Refuses header code

theorem not_accepts_of_unwanted (unwanted : Unwanted header code) : ¬ Accepts header code := by
  rintro ⟨entry, member, weight, gives⟩
  rcases unwanted with none | any | refuses
  · exact gives.named none
  · exact gives.special any
  · have weightless := refuses.weightless entry member gives.spelled
    rw [gives.weighs] at weightless
    exact gives.positive.ne' (Option.some.inj weightless)

/-- A language that is not wanted is among the languages of a header exactly if it is the base
of a code that the header accepts. -/
theorem mem_parse_iff_of_unwanted (unwanted : Unwanted header code) :
    code ∈ parse header ↔ ∃ regional, Accepts header regional ∧ IsBase code regional := by
  rw [mem_parse_iff_accepts, or_iff_right (not_accepts_of_unwanted unwanted)]

/-! ## A refused language -/

/-- A first entry of weight zero refuses its code if no other entry has it. -/
theorem refuses_of_first {part : List Char} {others : List (List Char)}
    (parts : Text.pieces ',' header.toList = part :: others)
    (weightless : (Entry.ofPart part).weight = some 0)
    (apart : ∀ other ∈ others, (Entry.ofPart other).code ≠ (Entry.ofPart part).code) :
    Refuses header (Entry.ofPart part).code := by
  rw [← List.forall_mem_map (P := fun entry : Entry => entry.code ≠ _)] at apart
  have listed : entries header = Entry.ofPart part :: others.map Entry.ofPart := by
    rw [entries, parts, List.map_cons]
  constructor
  · exact ⟨_, listed ▸ List.mem_cons_self, rfl⟩
  · rw [listed, List.forall_mem_cons]
    exact ⟨fun _ => weightless, fun other member same => absurd same (apart other member)⟩

theorem weight_german : (Entry.ofPart "de;q=0".toList).weight = some 0 := by
  have zero : (Text.pieces ';' "de;q=0".toList).tail.findSome? weightParameter? =
      some (.magnitude false 0) := by
    decide +kernel
  rw [Entry.ofPart, zero]
  simp [Decimal.Format.number?,
    Decimal.Format.magnitude_zero (show 0 < binary32.infinity by decide)]

theorem code_german : (Entry.ofPart "de;q=0".toList).code = "de" := by
  unfold Entry.code
  decide +kernel

/-- Refused beside another language, German stays out. -/
theorem notMem_parse_refused_german :
    Unwanted "de;q=0, en-GB" "de" ∧ "de" ∉ parse "de;q=0, en-GB" := by
  have apart : ∀ other ∈ [" en-GB".toList],
      (Entry.ofPart other).code ≠ (Entry.ofPart "de;q=0".toList).code := by
    unfold Entry.code
    decide +kernel
  have unwanted : Unwanted "de;q=0, en-GB" "de" :=
    Or.inr (Or.inr (code_german ▸ refuses_of_first (by decide +kernel) weight_german apart))
  refine ⟨unwanted, fun member => ?_⟩
  obtain ⟨regional, accepted, isBase⟩ := (mem_parse_iff_of_unwanted unwanted).mp member
  obtain ⟨entry, isRanked, rfl⟩ := accepts_iff.mp accepted
  have only : ranked "de;q=0, en-GB" = [⟨"en-gb", fullWeight⟩] := by
    decide +kernel
  rw [only, List.mem_singleton] at isRanked
  rw [isRanked] at isBase
  exact absurd (base?_eq_some_iff.mpr isBase) (by decide +kernel)

/-- Refused beside the German of Austria, it comes back. -/
theorem mem_parse_refused_austrian :
    Unwanted "de;q=0, de-AT" "de" ∧ "de" ∈ parse "de;q=0, de-AT" := by
  have apart : ∀ other ∈ [" de-AT".toList],
      (Entry.ofPart other).code ≠ (Entry.ofPart "de;q=0".toList).code := by
    unfold Entry.code
    decide +kernel
  refine ⟨Or.inr (Or.inr ?_), by decide +kernel⟩
  exact code_german ▸ refuses_of_first (by decide +kernel) weight_german apart

end Gazetteer.Language
