import Gazetteer.Proofs.Json.Compact
import Gazetteer.Snapshot.Encoding

/-!
# Fields that are written and read

An object that is written from fields, of which some may be left out, is read as a record of the
same fields: as long as all names differ, each name finds its own member or none.  A list is read
item by item, and tags, whose keys ascend, fall into the places they were taken from.
-/

namespace Gazetteer

open Data

/-! ## Lists -/

section Lists

variable {α β : Type}

theorem mapM_eq_some_iff {f : α → Option β} {items : List α} {results : List β} :
    items.mapM f = some results ↔ items.map f = results.map some := by
  induction items generalizing results with
  | nil => cases results <;> simp
  | cons item rest ih =>
      rw [List.mapM_cons]
      cases found : f item with
      | none => cases results <;> simp [found]
      | some result =>
          cases results with
          | nil => simp [Option.bind_eq_some_iff]
          | cons other others =>
              simp only [Option.bind_eq_bind, Option.bind_some, Option.bind_eq_some_iff,
                Option.pure_def, Option.some.injEq, List.cons.injEq, ih, List.map_cons, found]
              constructor
              · rintro ⟨taken, mapped, rfl, rfl⟩
                exact ⟨rfl, mapped⟩
              · rintro ⟨same, mapped⟩
                exact ⟨others, mapped, same, rfl⟩

/-- A list reads back if each of its items does. -/
theorem listOf?_array {encode : α → Value} {decode : Value → Option α} {items : List α}
    (restored : ∀ item ∈ items, decode (encode item) = some item) :
    Value.listOf? decode (.array (items.map encode)) = some items := by
  change (items.map encode).mapM decode = some items
  rw [mapM_eq_some_iff, List.map_map]
  exact List.map_congr_left restored

end Lists

/-! ## Records -/

/-- The members that fields are written as: those that are missing are left out. -/
def membersOf : List String → List (Option Value) → List (String × Value)
  | name :: names, field :: fields => field? name field ++ membersOf names fields
  | _, _ => []

section Records

variable {name : String} {names : List String} {fields : List (Option Value)}

theorem mem_names_of_mem_membersOf {member : String × Value}
    (isMember : member ∈ membersOf names fields) : member.1 ∈ names := by
  fun_induction membersOf names fields with
  | case1 name names field fields ih =>
      rcases List.mem_append.mp isMember with own | other
      · obtain ⟨value, -, rfl⟩ : ∃ value, field = some value ∧ (name, value) = member := by
          simpa [field?] using own
        exact List.mem_cons_self
      · exact List.mem_cons_of_mem name (ih other)
  | case2 => exact absurd isMember List.not_mem_nil

/-- A name that no field has finds nothing. -/
theorem filter_membersOf_of_notMem (absent : name ∉ names) :
    (membersOf names fields).filter (fun member => member.1 = name) = [] := by
  rw [List.filter_eq_nil_iff]
  intro member isMember isNamed
  rw [decide_eq_true_eq] at isNamed
  exact absent (isNamed ▸ mem_names_of_mem_membersOf isMember)

theorem filter_field?_self (field : Option Value) :
    (field? name field).filter (fun member => member.1 = name) = field? name field := by
  cases field <;> simp [field?]

theorem filter_field?_of_ne {other : String} (field : Option Value) (differ : other ≠ name) :
    (field? name field).filter (fun member => member.1 = other) = [] := by
  cases field <;> simp [field?, differ.symm]

/-- The first of the names finds the first of the fields. -/
theorem member?_membersOf_self (field : Option Value) (absent : name ∉ names) :
    Value.member? name (membersOf (name :: names) (field :: fields)) = some field := by
  rw [membersOf, Value.member?, List.filter_append, filter_field?_self,
    filter_membersOf_of_notMem absent, List.append_nil]
  cases field <;> rfl

/-- The first of the fields is in no other name's way. -/
theorem member?_membersOf_of_ne {other : String} (field : Option Value) (differ : other ≠ name) :
    Value.member? other (membersOf (name :: names) (field :: fields)) =
      Value.member? other (membersOf names fields) := by
  rw [membersOf, Value.member?, List.filter_append, filter_field?_of_ne field differ,
    List.nil_append, Value.member?]

/-- A record has the fields that it was written from. -/
theorem record?_eq_some {value : Value} (written : value = .object (membersOf names fields))
    (distinct : names.Nodup) (same : names.length = fields.length) :
    value.record? names = some fields := by
  rw [written]
  clear written
  change names.mapM (fun name => Value.member? name (membersOf names fields)) = some fields
  rw [mapM_eq_some_iff]
  induction names generalizing fields with
  | nil =>
      rw [List.eq_nil_of_length_eq_zero same.symm]
      rfl
  | cons name names ih =>
      obtain ⟨absent, restDistinct⟩ := List.nodup_cons.mp distinct
      cases fields with
      | nil => exact absurd same (Nat.succ_ne_zero _)
      | cons field fields =>
          have others : names.map
                (fun other => Value.member? other (membersOf (name :: names) (field :: fields))) =
              names.map fun other => Value.member? other (membersOf names fields) := by
            apply List.map_congr_left
            intro other isOther
            exact member?_membersOf_of_ne field (ne_of_mem_of_not_mem isOther absent)
          rw [List.map_cons, List.map_cons, member?_membersOf_self field absent, others,
            ih restDistinct (Nat.succ.inj same)]

/-- An object can be read if all of the fields that it is written from can. -/
theorem readable_membersOf
    (readable : ∀ field ∈ fields, ∀ value, field = some value → Json.Readable value) :
    Json.Readable (.object (membersOf names fields)) := by
  apply Json.Readable.object
  fun_induction membersOf names fields with
  | case1 name names field fields ih =>
      obtain ⟨readableField, readableRest⟩ := List.forall_mem_cons.mp readable
      intro member isMember
      rcases List.mem_append.mp isMember with own | other
      · obtain ⟨value, isValue, rfl⟩ : ∃ value, field = some value ∧ (name, value) = member := by
          simpa [field?] using own
        exact readableField value isValue
      · exact ih readableRest member other
  | case2 => exact List.forall_mem_nil _

end Records

section Fields

variable {α β : Type} {encode : α → Value} {decode : Value → Option α} {value : Value} {content : α}

/-- Reading goes on with what a field that has to be there reads back as. -/
theorem required_bind (restored : decode value = some content) (next : α → Option β) :
    (required decode (some value) >>= next) = next content := by
  rw [required, Option.bind_some, restored, Option.bind_eq_bind, Option.bind_some]

/-- Reading goes on with what a field that has a default reads back as. -/
theorem optional_bind {default : α} (restored : decode value = some content)
    (next : α → Option β) :
    (Data.optional default decode (some value) >>= next) = next content := by
  rw [Data.optional, restored, Option.bind_eq_bind, Option.bind_some]

/-- Reading goes on with what a field that may be missing was written from. -/
theorem optional_map_bind
    (restored : ∀ content, Value.optional? decode (encode content) = some (some content))
    (field : Option α) (next : Option α → Option β) :
    (Data.optional none (Value.optional? decode) (field.map encode) >>= next) = next field := by
  cases field with
  | none => rfl
  | some content => exact optional_bind (restored content) next

end Fields

/-! ## Tags -/

namespace Tags

variable {entries : List (String × String)} {key value : String}

/-- An entry with the greatest key goes to the end. -/
theorem place_of_last (last : ∀ entry ∈ entries, entry.1 < key) :
    place key value entries = entries ++ [(key, value)] := by
  induction entries with
  | nil => rfl
  | cons entry rest ih =>
      obtain ⟨before, lastOfRest⟩ := List.forall_mem_cons.mp last
      rw [place, if_neg (String.lt_asymm before), if_pos before, ih lastOfRest, List.cons_append]

theorem entries_foldl_insert (tags : Tags) {pairs : List (String × String)}
    (ascending : (tags.entries ++ pairs).Pairwise fun first second => first.1 < second.1) :
    (pairs.foldl (fun tags pair => tags.insert pair.1 pair.2) tags).entries =
      tags.entries ++ pairs := by
  induction pairs generalizing tags with
  | nil => simp
  | cons pair rest ih =>
      have last : ∀ entry ∈ tags.entries, entry.1 < pair.1 := fun entry isEntry =>
        (List.pairwise_append.mp ascending).2.2 entry isEntry pair List.mem_cons_self
      have inserted : (tags.insert pair.1 pair.2).entries = tags.entries ++ [pair] :=
        place_of_last last
      have together : tags.entries ++ pair :: rest = tags.entries ++ [pair] ++ rest := by simp
      rw [together] at ascending ⊢
      rw [List.foldl_cons, ih _ (by rwa [inserted]), inserted]

/-- Tags are made of their own entries. -/
theorem ofList_entries (tags : Tags) : ofList tags.entries = tags :=
  Tags.ext (entries_foldl_insert empty tags.sorted)

theorem ofValue?_toValue (tags : Tags) : ofValue? tags.toValue = some tags := by
  have pairs : (tags.entries.map fun entry => (entry.1, Value.text entry.2)).mapM
      (fun member => member.2.text?.map fun text => (member.1, text)) = some tags.entries := by
    rw [mapM_eq_some_iff, List.map_map]
    rfl
  rw [toValue, ofValue?, Value.table?]
  simp only [Option.bind_eq_bind, Option.bind_some]
  rw [pairs, Option.bind_some, ofList_entries]

theorem readable_toValue (tags : Tags) : Json.Readable tags.toValue := by
  apply Json.Readable.object
  intro member isMember
  obtain ⟨entry, -, rfl⟩ := List.mem_map.mp isMember
  exact .text entry.2

end Tags

end Gazetteer
