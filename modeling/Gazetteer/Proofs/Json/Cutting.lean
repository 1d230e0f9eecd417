import Gazetteer.Json.Writer
import Gazetteer.Proofs.Json.Words

/-!
# Cutting the text of a value

The text that a value is written as is cut into the tokens of the value.  A mark and a text in
quotes are tokens at once, whatever follows; a word is one only where the next character ends it
or there is no next character.  In the text of a value a word is followed by a mark or by
nothing, so that tokens are those of the parts, one part after another.
-/

namespace Gazetteer.Json

open Gazetteer.Data (Value)

/-- The tokens of the characters that follow a scan. -/
def Scan.cut (scan : Scan) (chars : List Char) : Option (List Token) :=
  (chars.foldlM Scan.step? scan).bind Scan.finish?

/-- Characters that a word in front of them ends at. -/
def EndsWord (rest : List Char) : Prop :=
  ∀ c ∈ rest.head?, Scan.endsWord c = true

/-- Characters are cut into tokens as long as what follows ends a word. -/
def Cuts (chars : List Char) (tokens : List Token) : Prop :=
  ∀ reversed rest, EndsWord rest →
    Scan.cut ⟨reversed, .nothing⟩ (chars ++ rest) =
      Scan.cut ⟨tokens.reverse ++ reversed, .nothing⟩ rest

/-- Characters are cut into tokens, whatever follows. -/
def CutsFreely (chars : List Char) (tokens : List Token) : Prop :=
  ∀ reversed rest,
    Scan.cut ⟨reversed, .nothing⟩ (chars ++ rest) =
      Scan.cut ⟨tokens.reverse ++ reversed, .nothing⟩ rest

section Parts

variable {chars next : List Char} {tokens nextTokens : List Token} {scan : Scan} {c : Char}

theorem Scan.cut_cons : scan.cut (c :: chars) = (scan.step? c).bind fun scan => scan.cut chars := by
  simp [Scan.cut, List.foldlM_cons, Option.bind_assoc]

theorem endsWord_nil : EndsWord [] := by
  simp [EndsWord]

theorem endsWord_cons (ends : Scan.endsWord c = true) : EndsWord (c :: chars) := by
  simpa [EndsWord] using ends

theorem CutsFreely.cuts (free : CutsFreely chars tokens) : Cuts chars tokens :=
  fun reversed rest _ => free reversed rest

theorem CutsFreely.append (free : CutsFreely chars tokens) (nextCuts : Cuts next nextTokens) :
    Cuts (chars ++ next) (tokens ++ nextTokens) := by
  intro reversed rest ends
  rw [List.append_assoc, free, nextCuts _ _ ends, List.reverse_append, List.append_assoc]

theorem CutsFreely.append_free (free : CutsFreely chars tokens)
    (nextFree : CutsFreely next nextTokens) :
    CutsFreely (chars ++ next) (tokens ++ nextTokens) := by
  intro reversed rest
  rw [List.append_assoc, free, nextFree, List.reverse_append, List.append_assoc]

/-- What stands in front of a character that ends a word is cut freely together with it. -/
theorem Cuts.append_free (cuts : Cuts chars tokens) (nextFree : CutsFreely (c :: next) nextTokens)
    (ends : Scan.endsWord c = true) :
    CutsFreely (chars ++ c :: next) (tokens ++ nextTokens) := by
  intro reversed rest
  have follow := cuts reversed (c :: next ++ rest) (endsWord_cons ends)
  rw [List.append_assoc, follow, nextFree, List.reverse_append, List.append_assoc]

theorem cuts_nil : CutsFreely [] [] := fun _ _ => rfl

/-! ## Marks and words -/

theorem cuts_mark {token : Token} (mark : mark? c = some token) : CutsFreely [c] [token] := by
  intro reversed rest
  have noSpace : isSpace c = false := by
    unfold mark? at mark
    split at mark
    all_goals first | rfl | simp at mark
  have noQuote : c ≠ '"' := by
    rintro rfl
    simp [mark?] at mark
  rw [List.singleton_append, Scan.cut_cons]
  simp [Scan.step?, Scan.begin, noSpace, noQuote, mark]

/-- A word goes on up to the first character that ends it. -/
theorem cut_word {reversed : List Token} {begun rest : List Char} (ofWord : OfWord chars) :
    Scan.cut ⟨reversed, .word begun⟩ (chars ++ rest) =
      Scan.cut ⟨reversed, .word (chars.reverse ++ begun)⟩ rest := by
  induction chars generalizing begun with
  | nil => rfl
  | cons c chars ih =>
      obtain ⟨goesOn, ofRest⟩ := ofWord_cons_iff.mp ofWord
      rw [List.cons_append, Scan.cut_cons]
      simp only [Scan.step?, goesOn, Bool.false_eq_true, if_false, Option.bind_some]
      rw [ih ofRest, List.reverse_cons, List.append_assoc, List.singleton_append]

/-- A word is cut off by whatever ends a word. -/
theorem cuts_word {value : Value} (isWord : wordValue? chars = some value) :
    Cuts chars [.word value] := by
  intro reversed rest ends
  obtain ⟨c, tail, rfl⟩ := List.exists_cons_of_ne_nil (ne_nil_of_wordValue? isWord)
  obtain ⟨begins, ofTail⟩ := ofWord_cons_iff.mp (ofWord_of_wordValue? isWord)
  have first : Scan.begin reversed c = ⟨reversed, .word [c]⟩ := by
    simp only [Scan.endsWord, Bool.or_eq_false_iff, decide_eq_false_iff_not] at begins
    obtain ⟨⟨noSpace, noQuote⟩, noMark⟩ := begins
    rw [Option.isSome_eq_false_iff, Option.isNone_iff_eq_none] at noMark
    simp [Scan.begin, noSpace, noQuote, noMark]
  rw [List.cons_append, Scan.cut_cons]
  simp only [Scan.step?, Option.bind_some, first]
  rw [cut_word ofTail]
  cases rest with
  | nil => simp [Scan.cut, Scan.finish?, isWord]
  | cons d rest =>
      have isEnd : Scan.endsWord d = true := ends d rfl
      rw [Scan.cut_cons, Scan.cut_cons]
      simp [Scan.step?, isEnd, isWord]

end Parts

/-! ## Texts in quotes -/

section Quotes

variable {reversed : List Token} {rest : List Char}

theorem hexDigit?_hexChar : ∀ n < 16, Text.hexDigit? (hexChar n) = some n := by
  decide

theorem addCode_of_lt {body : Body} {code : Nat} (small : code < 0x20) :
    body.addCode code = body.add (Char.ofNat code) := by
  have noHalf : isHighHalf code = false ∧ isLowHalf code = false := by
    simp only [isHighHalf, isLowHalf, Bool.and_eq_false_iff, decide_eq_false_iff_not]
    omega
  simp [Body.addCode, noHalf]

/-- A character is spelled by an escape of one letter, by its number or by itself. -/
theorem escaped_cases (c : Char) :
    (∃ letter, escaped c = ['\\', letter] ∧ escape? letter = some c ∧ letter ≠ 'u') ∨
      (escaped c = ['\\', 'u', '0', '0', hexChar (c.toNat / 16), hexChar (c.toNat % 16)] ∧
        c.toNat < 0x20) ∨
      (escaped c = [c] ∧ c ≠ '"' ∧ c ≠ '\\' ∧ ¬ c.toNat < 0x20) := by
  unfold escaped
  repeat' split
  case isFalse.isFalse.isFalse.isFalse.isFalse.isFalse.isFalse.isTrue control =>
    exact .inr (.inl ⟨rfl, control⟩)
  case isFalse.isFalse.isFalse.isFalse.isFalse.isFalse.isFalse.isFalse =>
    rename_i noQuote noBackslash _ _ _ _ _ noControl
    exact .inr (.inr ⟨rfl, noQuote, noBackslash, noControl⟩)
  all_goals
    subst_vars
    exact .inl ⟨_, rfl, rfl, by decide⟩

/-- The spelling of a character adds the character to a text. -/
theorem cut_escaped (body : Body) (c : Char) :
    Scan.cut ⟨reversed, .text body⟩ (escaped c ++ rest) =
      Scan.cut ⟨reversed, .text (body.add c)⟩ rest := by
  rcases escaped_cases c with ⟨letter, spelled, isEscape, noNumber⟩ | ⟨spelled, control⟩ |
    ⟨spelled, noQuote, noBackslash, noControl⟩
  · rw [spelled]
    simp [Scan.cut_cons, Scan.step?, isEscape, noNumber]
  · have high := hexDigit?_hexChar (c.toNat / 16) (by omega)
    have low := hexDigit?_hexChar (c.toNat % 16) (by omega)
    have zero : Text.hexDigit? '0' = some 0 := rfl
    have code : 16 * (c.toNat / 16) + c.toNat % 16 = c.toNat := by omega
    rw [spelled]
    simp [Scan.cut_cons, Scan.step?, zero, high, low, code, addCode_of_lt control]
  · rw [spelled]
    simp [Scan.cut_cons, Scan.step?, noQuote, noBackslash, noControl]

theorem cut_escaped_all (body : Body) (chars : List Char) :
    Scan.cut ⟨reversed, .text body⟩ (chars.flatMap escaped ++ rest) =
      Scan.cut ⟨reversed, .text (chars.foldl Body.add body)⟩ rest := by
  induction chars generalizing body with
  | nil => rfl
  | cons c chars ih =>
      rw [List.flatMap_cons, List.append_assoc, cut_escaped, ih, List.foldl_cons]

theorem foldl_add {done : List Char} (chars : List Char) :
    chars.foldl Body.add ⟨done, true, none⟩ = ⟨chars.reverse ++ done, true, none⟩ := by
  induction chars generalizing done with
  | nil => rfl
  | cons c chars ih =>
      rw [List.foldl_cons, List.reverse_cons, List.append_assoc]
      exact ih

/-- A text in quotes is one token with the text as its content. -/
theorem cuts_quoted (text : String) : CutsFreely (quoted text).toList [.text (some text)] := by
  intro reversed rest
  have spelled : (quoted text).toList = '"' :: (text.toList.flatMap escaped ++ ['"']) := by
    simp only [quoted, String.toList_append, String.toList_ofList]
    rfl
  have content : (Body.text? (text.toList.foldl Body.add .empty)) = some text := by
    rw [Body.empty, foldl_add]
    simp [Body.text?]
  have opened : Scan.step? ⟨reversed, .nothing⟩ '"' = some ⟨reversed, .text .empty⟩ := rfl
  have closed (body : Body) :
      Scan.step? ⟨reversed, .text body⟩ '"' = some ⟨.text body.text? :: reversed, .nothing⟩ := rfl
  rw [spelled, List.cons_append, Scan.cut_cons, opened, Option.bind_some, List.append_assoc,
    cut_escaped_all, List.singleton_append, Scan.cut_cons, closed, Option.bind_some, content]
  rfl

end Quotes

end Gazetteer.Json
