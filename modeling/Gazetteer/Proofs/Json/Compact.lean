import Gazetteer.Json.Reader
import Gazetteer.Proofs.Json.Cutting

/-!
# Values that read back from their text

The text of a value on one line reads back as the value.  It is cut into the tokens of the
value, and these build the value wherever one is awaited: the parts of an array or an object
become parts of what is open, one by one, and the last mark closes it.

Numbers are the only parts for which something has to be known.  A whole number reads back as
long as it has 64 bits.  A real number is found from its digits by rounding more than once, so
that its text may stand for a neighbour: that it does not is what `Restores` says.
-/

namespace Gazetteer.Json

open Gazetteer.Data (Value)

/-- The text of a real number stands for the number. -/
def Restores (number : Float) : Prop :=
  wordValue? (Decimal.inDocuments.write number).toList = some (.real number)

instance (number : Float) : Decidable (Restores number) :=
  match found : wordValue? (Decimal.inDocuments.write number).toList with
  | some (.real value) =>
    if same : value = number then .isTrue (by rw [Restores, found, same])
    else .isFalse (by simp [Restores, found, same])
  | some .null | some .meaningless | some (.truth _) | some (.integer _) | some (.text _)
  | some (.array _) | some (.object _) | none => .isFalse (by simp [Restores, found])

/-- Digits that do not fit a significand are lost: this text stands for `1.4`. -/
example : ¬ Restores 1.4000000000000001 := by decide +kernel

/-- Values that have a text from which they read back. -/
inductive Readable : Value → Prop
  | null : Readable .null
  | truth (value : Bool) : Readable (.truth value)
  | integer {value : Int} (low : Int64.minValue.toInt ≤ value) (high : value < UInt64.size) :
      Readable (.integer value)
  | real {value : Float} (finite : value.isFinite = true) (restores : Restores value) :
      Readable (.real value)
  | text (value : String) : Readable (.text value)
  | array {items : List Value} (readable : ∀ item ∈ items, Readable item) :
      Readable (.array items)
  | object {members : List (String × Value)} (readable : ∀ member ∈ members, Readable member.2) :
      Readable (.object members)

/-- The tokens that a value is written with. -/
def tokensOf : Value → List Token
  | .null => [.word .null]
  | .meaningless => [.word .null]
  | .truth value => [.word (.truth value)]
  | .integer value => [.word (.integer value)]
  | .real value => [.word (.real value)]
  | .text value => [.text (some value)]
  | .array items =>
    .openArray :: [Token.comma].intercalate (items.map tokensOf) ++ [.closeArray]
  | .object members =>
    .openObject ::
      [Token.comma].intercalate
        (members.map fun member => .text (some member.1) :: .colon :: tokensOf member.2) ++
      [.closeObject]
decreasing_by
  · decreasing_tactic
  · rename_i isMember
    have smaller := List.sizeOf_lt_of_mem isMember
    obtain ⟨name, value⟩ := member
    simp only [Prod.mk.sizeOf_spec, Value.object.sizeOf_spec] at smaller ⊢
    omega

/-! ## Cutting -/

theorem writeItems_eq_map (setting : Setting) (depth : Nat) (items : List Value) :
    setting.writeItems depth items = items.map (setting.write depth) := by
  induction items with
  | nil => rfl
  | cons item rest ih => rw [Setting.writeItems, ih, List.map_cons]

theorem writeMembers_eq_map (setting : Setting) (depth : Nat) (members : List (String × Value)) :
    setting.writeMembers depth members =
      members.map fun member =>
        quoted member.1 ++ setting.colon ++ setting.write depth member.2 := by
  induction members with
  | nil => rfl
  | cons member rest ih => rw [Setting.writeMembers, ih, List.map_cons]

/-- What is enclosed on one line stands between the brackets with commas between its parts. -/
theorem toList_enclose_compact (depth : Nat) (opening closing : String) (parts : List String) :
    (Setting.compact.enclose depth opening closing parts).toList =
      opening.toList ++ ([','].intercalate (parts.map String.toList) ++ closing.toList) := by
  unfold Setting.enclose
  split
  · rename_i empty
    rw [List.isEmpty_iff.mp empty, String.toList_append]
    rfl
  · simp only [Setting.compact, String.append_empty, String.toList_append,
      String.toList_intercalate, List.append_assoc]
    rfl

section Parts

variable {α : Type} {chars : α → List Char} {tokens : α → List Token}

/-- Parts with commas between them are cut into their tokens with commas between them. -/
theorem cuts_intercalate {parts : List α} (cuts : ∀ part ∈ parts, Cuts (chars part) (tokens part)) :
    Cuts ([','].intercalate (parts.map chars)) ([Token.comma].intercalate (parts.map tokens)) := by
  induction parts with
  | nil => exact cuts_nil.cuts
  | cons part rest ih =>
      obtain ⟨cutsPart, cutsRest⟩ := List.forall_mem_cons.mp cuts
      cases rest with
      | nil => simpa using cutsPart
      | cons next rest =>
          have comma : CutsFreely [','] [.comma] := cuts_mark rfl
          have joined := (cutsPart.append_free comma rfl).append (ih cutsRest)
          simpa using joined

end Parts

/-- The text of a value is cut into the tokens of the value. -/
theorem cuts_write {value : Value} (readable : Readable value) (depth : Nat) :
    Cuts (Setting.compact.write depth value).toList (tokensOf value) := by
  induction readable generalizing depth with
  | null =>
      rw [Setting.write, tokensOf]
      exact cuts_word rfl
  | truth value =>
      rw [Setting.write, tokensOf]
      cases value <;> exact cuts_word rfl
  | integer low high =>
      rw [Setting.write, tokensOf]
      exact cuts_word (wordValue?_toString low high)
  | real finite restores =>
      rw [Setting.write, tokensOf, realText, if_pos finite]
      exact cuts_word restores
  | text value =>
      rw [Setting.write, tokensOf]
      exact (cuts_quoted value).cuts
  | @array items readable ih =>
      have opening : CutsFreely ['['] [.openArray] := cuts_mark rfl
      have closing : CutsFreely [']'] [.closeArray] := cuts_mark rfl
      have parts := cuts_intercalate fun item member => ih item member (depth + 1)
      rw [Setting.write, tokensOf, toList_enclose_compact, writeItems_eq_map, List.map_map]
      exact opening.append (parts.append_free closing rfl).cuts
  | @object members readable ih =>
      have opening : CutsFreely ['\x7b'] [.openObject] := cuts_mark rfl
      have closing : CutsFreely ['\x7d'] [.closeObject] := cuts_mark rfl
      have colon : CutsFreely [':'] [.colon] := cuts_mark rfl
      have cutsMember : ∀ member ∈ members,
          Cuts (quoted member.1 ++ Setting.compact.colon ++
              Setting.compact.write (depth + 1) member.2).toList
            (.text (some member.1) :: .colon :: tokensOf member.2) := by
        intro member isMember
        rw [String.toList_append, String.toList_append]
        exact ((cuts_quoted member.1).append_free colon).append (ih member isMember (depth + 1))
      rw [Setting.write, tokensOf, toList_enclose_compact, writeMembers_eq_map, List.map_map]
      exact opening.append ((cuts_intercalate cutsMember).append_free closing rfl).cuts

/-- The text of a value on one line is cut into the tokens of the value. -/
theorem tokens?_compact {value : Value} (readable : Readable value) :
    tokens? (compact value).toList = some (tokensOf value) := by
  have cut := cuts_write readable 0 [] [] endsWord_nil
  rw [List.append_nil, List.append_nil] at cut
  refine cut.trans ?_
  simp [Scan.cut, Scan.finish?]

/-! ## Reading -/

/-- Tokens build a value wherever one is awaited. -/
def Builds (tokens : List Token) (value : Value) : Prop :=
  ∀ frames awaited, awaited = .value ∨ awaited = .valueOrEnd →
    tokens.foldlM Progress.step? ⟨frames, awaited⟩ = some (Progress.complete value frames)

namespace Builds

theorem word (value : Value) : Builds [.word value] value := by
  rintro frames awaited (rfl | rfl) <;> rfl

theorem text (value : String) : Builds [.text (some value)] (.text value) := by
  rintro frames awaited (rfl | rfl) <;> rfl

section Parts

variable {β : Type} {tokens : β → List Token} {frames : List Frame}

/-- Parts with commas between them become parts of what is open, if each one does wherever it
may stand. -/
theorem parts (frame : List β → Frame) (first later : Awaited) {parts : List β}
    (builds : ∀ part ∈ parts, ∀ reversed awaited, awaited = first ∨ awaited = later →
      (tokens part).foldlM Progress.step? ⟨frame reversed :: frames, awaited⟩ =
        some ⟨frame (part :: reversed) :: frames, .commaOrEnd⟩)
    (comma : ∀ reversed, Progress.step? ⟨frame reversed :: frames, .commaOrEnd⟩ .comma =
      some ⟨frame reversed :: frames, later⟩)
    (reversed : List β) {awaited : Awaited} (isAwaited : awaited = first ∨ awaited = later)
    (nonempty : parts ≠ []) :
    ([Token.comma].intercalate (parts.map tokens)).foldlM Progress.step?
        ⟨frame reversed :: frames, awaited⟩ =
      some ⟨frame (parts.reverse ++ reversed) :: frames, .commaOrEnd⟩ := by
  induction parts generalizing reversed awaited with
  | nil => exact absurd rfl nonempty
  | cons part rest ih =>
      obtain ⟨buildsPart, buildsRest⟩ := List.forall_mem_cons.mp builds
      have built := buildsPart reversed awaited isAwaited
      cases rest with
      | nil => simpa using built
      | cons next rest =>
          have goOn := ih buildsRest (part :: reversed) (.inr rfl) (List.cons_ne_nil _ _)
          rw [List.map_cons, List.map_cons, List.intercalate_cons_cons, List.append_assoc,
            List.foldlM_append, built]
          simp only [Option.bind_eq_bind, Option.bind_some, List.singleton_append,
            List.foldlM_cons, comma]
          rw [← List.map_cons, goOn, List.reverse_cons (a := part), List.append_assoc,
            List.singleton_append]

end Parts

/-- An array is built from its items. -/
theorem array {items : List Value} (builds : ∀ item ∈ items, Builds (tokensOf item) item) :
    Builds (tokensOf (.array items)) (.array items) := by
  intro frames awaited isAwaited
  have opened : Progress.step? ⟨frames, awaited⟩ .openArray =
      some ⟨.array [] :: frames, .valueOrEnd⟩ := by
    rcases isAwaited with rfl | rfl <;> rfl
  have closed (reversed : List Value) :
      Progress.step? ⟨.array reversed :: frames, .commaOrEnd⟩ .closeArray =
        some (Progress.complete (.array reversed.reverse) frames) := rfl
  rw [tokensOf, List.cons_append, List.foldlM_cons, opened, Option.bind_eq_bind, Option.bind_some,
    List.foldlM_append]
  cases items with
  | nil => rfl
  | cons item rest =>
      have built := parts Frame.array .valueOrEnd .value
        (fun item member reversed awaited isAwaited =>
          builds item member (.array reversed :: frames) awaited isAwaited.symm)
        (fun _ => rfl) [] (.inl rfl) (List.cons_ne_nil item rest)
      rw [built, Option.bind_eq_bind, Option.bind_some, List.foldlM_cons, closed, List.append_nil,
        List.reverse_reverse]
      rfl

/-- An object is built from its members, each of which is a name, a colon and a value. -/
theorem object {members : List (String × Value)}
    (builds : ∀ member ∈ members, Builds (tokensOf member.2) member.2) :
    Builds (tokensOf (.object members)) (.object members) := by
  intro frames awaited isAwaited
  have opened : Progress.step? ⟨frames, awaited⟩ .openObject =
      some ⟨.object true [] "" :: frames, .nameOrEnd⟩ := by
    rcases isAwaited with rfl | rfl <;> rfl
  have closed (reversed : List (String × Value)) :
      Progress.step? ⟨.object true reversed "" :: frames, .commaOrEnd⟩ .closeObject =
        some (Progress.complete (.object reversed.reverse) frames) := rfl
  have named (reversed : List (String × Value)) (name : String) {awaited : Awaited}
      (isAwaited : awaited = .nameOrEnd ∨ awaited = .name) :
      Progress.step? ⟨.object true reversed "" :: frames, awaited⟩ (.text (some name)) =
        some ⟨.object true reversed name :: frames, .colon⟩ := by
    rcases isAwaited with rfl | rfl <;> rfl
  have colon (reversed : List (String × Value)) (name : String) :
      Progress.step? ⟨.object true reversed name :: frames, .colon⟩ .colon =
        some ⟨.object true reversed name :: frames, .value⟩ := rfl
  rw [tokensOf, List.cons_append, List.foldlM_cons, opened, Option.bind_eq_bind, Option.bind_some,
    List.foldlM_append]
  cases members with
  | nil => rfl
  | cons member rest =>
      have each : ∀ part ∈ member :: rest, ∀ reversed awaited,
          awaited = .nameOrEnd ∨ awaited = .name →
            (.text (some part.1) :: .colon :: tokensOf part.2).foldlM Progress.step?
                ⟨.object true reversed "" :: frames, awaited⟩ =
              some ⟨.object true (part :: reversed) "" :: frames, .commaOrEnd⟩ := by
        intro part isPart reversed awaited isAwaited
        rw [List.foldlM_cons, named reversed part.1 isAwaited, Option.bind_eq_bind,
          Option.bind_some, List.foldlM_cons, colon, Option.bind_eq_bind, Option.bind_some]
        exact builds part isPart (.object true reversed part.1 :: frames) .value (.inl rfl)
      have built := parts (fun reversed => Frame.object true reversed "") .nameOrEnd .name each
        (fun _ => rfl) [] (.inl rfl) (List.cons_ne_nil member rest)
      rw [built, Option.bind_eq_bind, Option.bind_some, List.foldlM_cons, closed, List.append_nil,
        List.reverse_reverse]
      rfl

end Builds

theorem builds_tokensOf {value : Value} (readable : Readable value) :
    Builds (tokensOf value) value := by
  induction readable with
  | null => simpa only [tokensOf] using Builds.word .null
  | truth value => simpa only [tokensOf] using Builds.word (.truth value)
  | @integer value low high => simpa only [tokensOf] using Builds.word (.integer value)
  | @real value finite restores => simpa only [tokensOf] using Builds.word (.real value)
  | text value => simpa only [tokensOf] using Builds.text value
  | array readable ih => exact Builds.array ih
  | object readable ih => exact Builds.object ih

/-- The text of a value on one line reads back as the value. -/
theorem read?_compact {value : Value} (readable : Readable value) :
    read? (compact value) = some value := by
  have built := builds_tokensOf readable [] .value (.inl rfl)
  rw [read?, tokens?_compact readable, Option.bind_eq_bind, Option.bind_some, built]
  rfl

end Gazetteer.Json
