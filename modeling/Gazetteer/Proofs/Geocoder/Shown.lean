import Gazetteer.Proofs.Address.Phrases
import Gazetteer.Proofs.Geocoder.Failing
import Gazetteer.Proofs.Naming

/-!
# What is shown of a place

The parts of a display name are trimmed names that are not empty, so a display name is empty
or visible.  Where it is empty, the name of the place stands in, which is visible too; so only
a place without any name is shown blank.  The lines of the address need not come from the place
itself, and the argument does not look at where they come from.
-/

namespace Gazetteer

open Text (isBlank)

namespace Address

variable {last pending : Option String} {part : String} {lines : List AddressLine}

theorem isBlank_text_of_isShown {line : AddressLine} (isShown : line.isShown = true) :
    isBlank line.text = false := by
  simp only [AddressLine.isShown, AddressLine.text, Text.isEmpty_trim, Bool.not_eq_true',
    Bool.or_eq_false_iff] at isShown
  rw [AddressLine.text, Text.isBlank_trim, isShown.1]

theorem mem_append {rest : Option String → List String} {name : String}
    (member : part ∈ append last name rest) : part = name ∨ ∃ last, part ∈ rest last := by
  unfold append at member
  split at member
  · exact Or.inr ⟨last, member⟩
  · rcases List.mem_cons.mp member with same | later
    · exact Or.inl same
    · exact Or.inr ⟨some name, later⟩

/-- As long as the house number that waits is visible, all parts are. -/
theorem isBlank_of_mem_partsFrom (waiting : ∀ number ∈ pending, isBlank number = false)
    (member : part ∈ partsFrom last pending lines) : isBlank part = false := by
  induction lines generalizing last pending with
  | nil => exact waiting part (Option.mem_toList.mp member)
  | cons line rest ih =>
      by_cases isShown : line.isShown = true
      · have visible := isBlank_text_of_isShown isShown
        by_cases isNumber : line.isNumber = true
        · rw [partsFrom_number isShown isNumber] at member
          exact ih (by simpa using visible) member
        · have plain := Bool.eq_false_iff.mpr isNumber
          cases pending with
          | none =>
              rw [partsFrom_plain isShown plain] at member
              rcases mem_append member with rfl | ⟨_, later⟩
              · exact visible
              · exact ih (by simp) later
          | some number =>
              have numberVisible := waiting number rfl
              by_cases isRoad : line.isRoad = true
              · rw [partsFrom_road isShown isRoad] at member
                rcases mem_append member with rfl | ⟨_, later⟩
                · simp [numberVisible]
                · exact ih (by simp) later
              · rw [partsFrom_noRoad isShown plain (Bool.eq_false_iff.mpr isRoad)] at member
                rcases List.mem_cons.mp member with rfl | behind
                · exact numberVisible
                · rcases mem_append behind with rfl | ⟨_, later⟩
                  · exact visible
                  · exact ih (by simp) later
      · rw [partsFrom_hidden (Bool.eq_false_iff.mpr isShown)] at member
        exact ih waiting member

/-- A display name that is not empty is visible. -/
theorem displayName_cases (lines : List AddressLine) :
    displayName lines = "" ∨ isBlank (displayName lines) = false := by
  unfold displayName
  cases same : parts lines with
  | nil => exact Or.inl String.intercalate_nil
  | cons part rest =>
      have member : part ∈ parts lines := by
        rw [same]
        exact List.mem_cons_self
      exact Or.inr (Text.isBlank_intercalate (isBlank_of_mem_partsFrom (by simp) member))

end Address

namespace Geocoder

variable {K : Type} [Scalar K] {geocoder : Geocoder K} {request : Request K} {answer : Answer K}

/-- Whatever its levels, the description of a place with a name is not blank. -/
theorem isBlank_displayName_describe {place : Place K}
    (nameable : ¬ (place.names.AllBlank ∧ place.address.AllBlank)) (distance : K)
    (entries : List ChainEntry) (truncated : Bool) :
    isBlank (geocoder.describe request place distance entries truncated).displayName = false := by
  obtain ⟨name, named⟩ : ∃ name, place.name? request.languages = some name :=
    Option.ne_none_iff_exists'.mp (mt Place.name?_eq_none_iff.mp nameable)
  simp only [describe, named]
  split
  · exact Place.isBlank_of_name? named
  · rename_i filled
    rcases Address.displayName_cases _ with empty | visible
    · exact absurd (String.isEmpty_iff.mpr empty) filled
    · exact visible

/-- It makes no difference which chain an answer is made from. -/
theorem isBlank_displayName_of_answer {matched : Place K} {distance : K} {chain : Chain}
    (answered : geocoder.answer request matched distance chain = .ok answer)
    (nameable : ¬ (answer.place.names.AllBlank ∧ answer.place.address.AllBlank)) :
    isBlank answer.displayName = false := by
  simp only [Geocoder.answer] at answered
  split at answered
  · contradiction
  · obtain rfl := Except.ok.inj answered
    exact isBlank_displayName_describe nameable ..

theorem exists_answer_of_resolve (resolved : geocoder.resolve request = .ok answer) :
    ∃ matched distance chain, geocoder.answer request matched distance chain = .ok answer := by
  obtain ⟨valid, matched, distance, _, found, _⟩ := resolve_eq_ok_iff.mp resolved
  exact ⟨matched, distance, _, resolve_of_findMatch? valid found ▸ resolved⟩

theorem exists_answer_of_resolveWith {hierarchy : Hierarchy}
    (resolved : (geocoder.resolveWith hierarchy request).1 = .ok answer) :
    ∃ matched distance chain, geocoder.answer request matched distance chain = .ok answer := by
  unfold resolveWith at resolved
  split at resolved
  · contradiction
  · split at resolved
    · contradiction
    · exact ⟨_, _, _, resolved⟩

/-- A place is without a name only if all its names and address tags are blank, and it never
goes by a blank one.  The first preferred language that it has a name in decides, and where
there is none the untranslated name.  What is shown of a place with a name or an address tag
that is not blank is not blank either, whether or not chains are remembered. -/
theorem nameable_shown (geocoder : Geocoder K) :
    (∀ (place : Place K) (languages : List String),
      (place.name? languages = none ↔
        (∀ text ∈ place.names.values, isBlank text = true) ∧
          ∀ text ∈ place.address.values, isBlank text = true) ∧
      (∀ name, place.name? languages = some name → isBlank name = false) ∧
      (∀ before language after name, languages = before ++ language :: after →
        (∀ earlier ∈ before, ∀ other, ¬ place.HasName earlier other) →
        place.HasName language name → place.name? languages = some name) ∧
      ((∀ language ∈ languages, ∀ other, ¬ place.HasName language other) →
        ∀ name, place.HasName defaultNameKey name → place.name? languages = some name)) ∧
    ∀ (hierarchy : Hierarchy) (request : Request K) (answer : Answer K),
      geocoder.resolve request = .ok answer ∨
          (geocoder.resolveWith hierarchy request).1 = .ok answer →
        ∀ text ∈ answer.place.names.values ++ answer.place.address.values,
          isBlank text = false → isBlank answer.displayName = false := by
  constructor
  · intro place languages
    refine ⟨Place.name?_eq_none_iff, fun _ => Place.isBlank_of_name?, ?_, ?_⟩
    · rintro before language after name rfl without named
      exact Place.name?_of_hasName without named
    · exact fun without _ named => Place.name?_of_hasName_default without named
  · intro hierarchy request answer resolved text member visible
    obtain ⟨matched, distance, chain, answered⟩ : ∃ matched distance chain,
        geocoder.answer request matched distance chain = .ok answer :=
      resolved.elim exists_answer_of_resolve exists_answer_of_resolveWith
    apply isBlank_displayName_of_answer answered
    rintro ⟨names, address⟩
    have blank : isBlank text = true :=
      (List.mem_append.mp member).elim (names text) (address text)
    exact absurd blank (Bool.eq_false_iff.mp visible)

/-! ## A post box -/

/-- A post box without a name, of which only the city is known. -/
def postBox : Store Float :=
  ⟨#[{ Place.pin 0 30 [] with
        searchRank := 30, address := .ofList [("city", "Birmingham")] }], rfl⟩

def postBoxGeocoder : Geocoder Float :=
  { crossroadsGeocoder with store := postBox, index := postBox.index, indexed := rfl }

/-- Its address has no lines, and still it is shown. -/
theorem nameable_shown_postBox :
    ∃ answer, postBoxGeocoder.resolve atOrigin = .ok answer ∧
      (∃ text ∈ answer.place.names.values ++ answer.place.address.values,
        isBlank text = false) ∧
      isBlank answer.displayName = false := by
  have described : (postBoxGeocoder.resolve atOrigin).toOption.any (fun answer =>
      answer.place.names.values ++ answer.place.address.values == ["Birmingham"]) = true := by
    decide +kernel
  obtain ⟨answer, isAnswer, tags⟩ := (Option.any_eq_true _ _).mp described
  have resolved : postBoxGeocoder.resolve atOrigin = .ok answer := by
    cases result : postBoxGeocoder.resolve atOrigin with
    | ok other =>
        rw [result] at isAnswer
        exact congrArg Except.ok (Option.some.inj isAnswer)
    | error failure =>
        rw [result] at isAnswer
        contradiction
  have member : "Birmingham" ∈ answer.place.names.values ++ answer.place.address.values := by
    rw [eq_of_beq tags]
    exact List.mem_singleton_self _
  have visible : isBlank "Birmingham" = false := by decide
  exact ⟨answer, resolved, ⟨_, member, visible⟩,
    (nameable_shown postBoxGeocoder).2 (postBoxGeocoder.hierarchy 0) atOrigin answer
      (Or.inl resolved) _ member visible⟩

end Geocoder

end Gazetteer
