import Gazetteer.Naming
import Gazetteer.Proofs.Text

/-!
# Which places have a name

Every way to name a place takes only texts that are not blank, so no place goes by a blank
name.  The last way looks at all address tags, and the one before the address at all names;
so a place is without a name only if all its names and all its address tags are blank.
-/

namespace Gazetteer

open Text (isBlank)

theorem notBlank?_eq_some_iff {text shown : String} :
    notBlank? text = some shown ↔ text = shown ∧ isBlank shown = false := by
  unfold notBlank?
  split
  · rename_i blank
    constructor
    · intro absurdly
      contradiction
    · rintro ⟨rfl, visible⟩
      exact absurd blank (Bool.eq_false_iff.mp visible)
  · rename_i visible
    rw [Option.some.injEq]
    refine iff_self_and.mpr ?_
    rintro rfl
    exact Bool.eq_false_iff.mpr visible

@[simp] theorem notBlank?_eq_none_iff {text : String} :
    notBlank? text = none ↔ isBlank text = true := by
  simp [notBlank?]

namespace Tags

/-- All texts are blank. -/
def AllBlank (tags : Tags) : Prop :=
  ∀ text ∈ tags.values, isBlank text = true

theorem mem_values_of_get? {tags : Tags} {key text : String} (found : tags.get? key = some text) :
    text ∈ tags.values := by
  obtain ⟨entry, isEntry, rfl⟩ := Option.map_eq_some_iff.mp found
  exact List.mem_map_of_mem (List.mem_of_find?_eq_some isEntry)

end Tags

namespace Place

variable {K : Type} {place : Place K} {languages : List String} {language key text : String}

/-! ## Names -/

/-- A place has a name in a language if there is one that is not blank. -/
def HasName (place : Place K) (language text : String) : Prop :=
  place.names.get? language = some text ∧ isBlank text = false

theorem nameIn?_eq_some_iff : place.nameIn? language = some text ↔ place.HasName language text := by
  simp only [nameIn?, HasName, Option.bind_eq_some_iff, notBlank?_eq_some_iff]
  constructor
  · rintro ⟨_, found, rfl, visible⟩
    exact ⟨found, visible⟩
  · rintro ⟨found, visible⟩
    exact ⟨text, found, rfl, visible⟩

theorem nameIn?_eq_none_iff :
    place.nameIn? language = none ↔ ∀ text, ¬ place.HasName language text := by
  simp only [Option.eq_none_iff_forall_ne_some, ne_eq, nameIn?_eq_some_iff]

theorem nameIn?_of_allBlank (blank : place.names.AllBlank) (language : String) :
    place.nameIn? language = none := by
  rw [nameIn?_eq_none_iff]
  rintro text ⟨found, visible⟩
  exact absurd (blank text (Tags.mem_values_of_get? found)) (Bool.eq_false_iff.mp visible)

/-! ## Address tags -/

theorem isBlank_of_addressTag? (found : place.addressTag? key = some text) :
    isBlank text = false := by
  obtain ⟨trimmed, _, visible⟩ := Option.bind_eq_some_iff.mp found
  exact (notBlank?_eq_some_iff.mp visible).2

theorem addressTag?_of_allBlank (blank : place.address.AllBlank) (key : String) :
    place.addressTag? key = none := by
  rw [addressTag?, Option.bind_eq_none_iff]
  intro trimmed found
  obtain ⟨text, isText, rfl⟩ := Option.map_eq_some_iff.mp found
  simpa using blank text (Tags.mem_values_of_get? isText)

/-- The address tags say nothing only if all of them are blank. -/
theorem addressName?_eq_none_iff : place.addressName? = none ↔ place.address.AllBlank := by
  constructor
  · intro nothing
    simp only [addressName?, Option.orElse_eq_orElse, Option.orElse_eq_or] at nothing
    split at nothing
    case h_4 =>
      intro text member
      have trimmed := List.findSome?_eq_none_iff.mp (Option.or_eq_none_iff.mp nothing).2 text member
      rwa [notBlank?_eq_none_iff, Text.isBlank_trim] at trimmed
    all_goals contradiction
  · intro blank
    have noTag := addressTag?_of_allBlank blank
    have noValue : (place.address.values.findSome? fun value => notBlank? (Text.trim value)) =
        none := by
      rw [List.findSome?_eq_none_iff]
      intro text member
      rw [notBlank?_eq_none_iff, Text.isBlank_trim, blank text member]
    simp [addressName?, noTag, noValue]

/-- What the address tags say is visible. -/
theorem isBlank_of_addressName? (named : place.addressName? = some text) :
    isBlank text = false := by
  simp only [addressName?, Option.orElse_eq_orElse, Option.orElse_eq_or] at named
  split at named
  case h_1 number street isNumber isStreet =>
    obtain rfl := Option.some.inj named
    simp [isBlank_of_addressTag? isNumber]
  case h_2 number isNumber _ =>
    obtain rfl := Option.some.inj named
    exact isBlank_of_addressTag? isNumber
  case h_3 street _ isStreet =>
    obtain rfl := Option.some.inj named
    have visibleStreet : isBlank street = false := by
      rcases Option.or_eq_some_iff.mp isStreet with isStreet | ⟨_, isPlace⟩
      · exact isBlank_of_addressTag? isStreet
      · exact isBlank_of_addressTag? isPlace
    cases house : place.addressTag? "housename" with
    | none => exact visibleStreet
    | some name => exact isBlank_of_addressTag? house
  case h_4 =>
    rcases Option.or_eq_some_iff.mp named with listed | ⟨_, any⟩
    · obtain ⟨key, _, isTag⟩ := List.exists_of_findSome?_eq_some listed
      exact isBlank_of_addressTag? isTag
    · obtain ⟨value, _, visible⟩ := List.exists_of_findSome?_eq_some any
      exact (notBlank?_eq_some_iff.mp visible).2

/-! ## All ways together -/

theorem name?_eq_or (place : Place K) (languages : List String) :
    place.name? languages =
      (languages.findSome? place.nameIn?).or ((place.nameIn? defaultNameKey).or
        ((place.names.values.findSome? notBlank?).or place.addressName?)) := by
  simp only [name?, Option.orElse_eq_orElse, Option.orElse_eq_or]

/-- A place is without a name only if all its names and address tags are blank. -/
theorem name?_eq_none_iff :
    place.name? languages = none ↔ place.names.AllBlank ∧ place.address.AllBlank := by
  simp only [name?_eq_or, Option.or_eq_none_iff, List.findSome?_eq_none_iff,
    notBlank?_eq_none_iff, addressName?_eq_none_iff]
  constructor
  · rintro ⟨_, _, names, address⟩
    exact ⟨names, address⟩
  · rintro ⟨names, address⟩
    exact ⟨fun language _ => nameIn?_of_allBlank names language, nameIn?_of_allBlank names _,
      names, address⟩

/-- No place goes by a blank name. -/
theorem isBlank_of_name? (named : place.name? languages = some text) : isBlank text = false := by
  simp only [name?_eq_or, Option.or_eq_some_iff] at named
  rcases named with preferred | ⟨_, untranslated | ⟨_, any | ⟨_, address⟩⟩⟩
  · obtain ⟨language, _, isName⟩ := List.exists_of_findSome?_eq_some preferred
    exact (nameIn?_eq_some_iff.mp isName).2
  · exact (nameIn?_eq_some_iff.mp untranslated).2
  · obtain ⟨name, _, visible⟩ := List.exists_of_findSome?_eq_some any
    exact (notBlank?_eq_some_iff.mp visible).2
  · exact isBlank_of_addressName? address

/-- The first preferred language that there is a name in decides. -/
theorem name?_of_hasName {before after : List String}
    (without : ∀ earlier ∈ before, ∀ other, ¬ place.HasName earlier other)
    (named : place.HasName language text) :
    place.name? (before ++ language :: after) = some text := by
  have preferred : (before ++ language :: after).findSome? place.nameIn? = some text := by
    rw [List.findSome?_eq_some_iff]
    exact ⟨before, language, after, rfl, nameIn?_eq_some_iff.mpr named,
      fun earlier member => nameIn?_eq_none_iff.mpr (without earlier member)⟩
  rw [name?_eq_or, preferred, Option.some_or]

/-- Without a name in a preferred language, a place goes by its untranslated name. -/
theorem name?_of_hasName_default
    (without : ∀ language ∈ languages, ∀ other, ¬ place.HasName language other)
    (named : place.HasName defaultNameKey text) : place.name? languages = some text := by
  have none : languages.findSome? place.nameIn? = none := by
    rw [List.findSome?_eq_none_iff]
    exact fun language member => nameIn?_eq_none_iff.mpr (without language member)
  rw [name?_eq_or, none, Option.none_or, nameIn?_eq_some_iff.mpr named, Option.some_or]

end Place

end Gazetteer
