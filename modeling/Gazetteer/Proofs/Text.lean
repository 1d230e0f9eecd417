import Gazetteer.Text.Blank
import Gazetteer.Text.Pieces

/-!
# Cutting and trimming

What is cut off is what was put there, and a text without separators or blank space is left
as it is.  Trimming takes away nothing that can be seen.
-/

namespace Gazetteer.Text

/-! ## Beginnings -/

theorem after?_eq_some_iff {start chars rest : List Char} :
    after? start chars = some rest ↔ chars = start ++ rest := by
  fun_induction after? start chars with
  | case1 chars => simp
  | case2 first start => simp
  | case3 start c chars ih => simp [ih]
  | case4 first start c chars different => simp [Ne.symm different]

theorem afterText?_eq_some_iff {start text rest : String} :
    afterText? start text = some rest ↔ text = start ++ rest := by
  simp only [afterText?, Option.map_eq_some_iff, after?_eq_some_iff]
  constructor
  · rintro ⟨chars, whole, rfl⟩
    rw [← String.toList_inj, String.toList_append, String.toList_ofList, whole]
  · rintro rfl
    exact ⟨rest.toList, String.toList_append, String.ofList_toList⟩

/-! ## Separators -/

theorem pieces_of_not_mem {separator : Char} {chars : List Char} (absent : separator ∉ chars) :
    pieces separator chars = [chars] := by
  induction chars with
  | nil => rfl
  | cons c rest ih =>
      have different : c ≠ separator := fun same => absent (same ▸ List.mem_cons_self)
      exact pieces_cons_of_ne different (ih fun later => absent (List.mem_cons_of_mem c later))

/-- The first piece is what is in front of the first separator. -/
theorem head?_pieces (separator : Char) (chars : List Char) :
    (pieces separator chars).head? = some (chars.takeWhile (· ≠ separator)) := by
  induction chars with
  | nil => rfl
  | cons c rest ih =>
      by_cases same : c = separator
      · rw [same, pieces_separator_cons, List.takeWhile_cons_of_neg (by simp)]
        rfl
      · obtain ⟨piece, others, tail⟩ := List.exists_cons_of_ne_nil (pieces_ne_nil separator rest)
        rw [pieces_cons_of_ne same tail, List.takeWhile_cons_of_pos (by simpa using same)]
        rw [tail] at ih
        exact congrArg (fun piece => some (c :: piece)) (Option.some.inj ih)

theorem pieces_append_separator {separator : Char} {piece : List Char}
    (absent : separator ∉ piece) (rest : List Char) :
    pieces separator (piece ++ separator :: rest) = piece :: pieces separator rest := by
  induction piece with
  | nil => exact pieces_separator_cons separator rest
  | cons c piece ih =>
      have different : c ≠ separator := fun same => absent (same ▸ List.mem_cons_self)
      exact pieces_cons_of_ne different (ih fun later => absent (List.mem_cons_of_mem c later))

/-- Parts that are joined by a separator which is in none of them are its pieces again. -/
theorem pieces_intercalate {separator : Char} {parts : List (List Char)} (nonempty : parts ≠ [])
    (absent : ∀ part ∈ parts, separator ∉ part) :
    pieces separator ([separator].intercalate parts) = parts := by
  induction parts with
  | nil => contradiction
  | cons part rest ih =>
      obtain ⟨here, later⟩ := List.forall_mem_cons.mp absent
      cases rest with
      | nil => rw [List.intercalate_singleton, pieces_of_not_mem here]
      | cons next rest =>
          rw [List.intercalate_cons_cons, List.append_assoc, List.singleton_append,
            pieces_append_separator here, ih (List.cons_ne_nil next rest) later]

theorem cut?_append {separator : Char} {before : List Char} (absent : separator ∉ before)
    (after : List Char) :
    cut? separator (before ++ separator :: after) = some (before, after) := by
  induction before with
  | nil => exact if_pos rfl
  | cons c before ih =>
      have different : c ≠ separator := fun same => absent (same ▸ List.mem_cons_self)
      rw [List.cons_append, cut?, if_neg different,
        ih fun later => absent (List.mem_cons_of_mem c later)]
      rfl

/-- A text is cut at the first separator. -/
theorem cut?_eq_some_iff {separator : Char} {chars before after : List Char} :
    cut? separator chars = some (before, after) ↔
      chars = before ++ separator :: after ∧ separator ∉ before := by
  constructor
  · intro cut
    refine ⟨eq_of_cut? cut, ?_⟩
    induction chars generalizing before with
    | nil => contradiction
    | cons c rest ih =>
        unfold cut? at cut
        split at cut
        · obtain ⟨rfl, rfl⟩ := Prod.mk.inj (Option.some.inj cut)
          exact List.not_mem_nil
        · rename_i different
          obtain ⟨⟨front, back⟩, cutRest, same⟩ := Option.map_eq_some_iff.mp cut
          obtain ⟨rfl, rfl⟩ := Prod.mk.inj same
          exact List.not_mem_cons_of_ne_of_not_mem (Ne.symm different) (ih cutRest)
  · rintro ⟨rfl, absent⟩
    exact cut?_append absent after

/-! ## Blank space -/

theorem trimChars_of_forall {chars : List Char} (visible : ∀ c ∈ chars, isBlankChar c = false) :
    trimChars chars = chars := by
  have kept : ∀ list : List Char, (∀ c ∈ list, isBlankChar c = false) →
      list.dropWhile isBlankChar = list := by
    intro list visible
    cases list with
    | nil => rfl
    | cons c rest =>
        exact List.dropWhile_cons_of_neg (Bool.eq_false_iff.mp (visible c List.mem_cons_self))
  rw [trimChars, kept chars visible, kept chars.reverse, List.reverse_reverse]
  intro c member
  exact visible c (List.mem_reverse.mp member)

/-- Trimming loses nothing that is visible. -/
theorem mem_trimChars {chars : List Char} {c : Char} (member : c ∈ chars)
    (visible : isBlankChar c = false) : c ∈ trimChars chars := by
  have kept : ∀ list : List Char, c ∈ list → c ∈ list.dropWhile isBlankChar := by
    intro list inList
    rw [← List.takeWhile_append_dropWhile (p := isBlankChar) (l := list),
      List.mem_append] at inList
    refine inList.resolve_left fun dropped => ?_
    have blank := List.all_eq_true.mp List.all_takeWhile c dropped
    rw [visible] at blank
    contradiction
  exact List.mem_reverse.mpr (kept _ (List.mem_reverse.mpr (kept chars member)))

theorem trimChars_subset (chars : List Char) : trimChars chars ⊆ chars := by
  intro c member
  have inFront := (List.dropWhile_sublist isBlankChar).subset (List.mem_reverse.mp member)
  exact (List.dropWhile_sublist isBlankChar).subset (List.mem_reverse.mp inFront)

/-- A text is as blank as it is when it is trimmed. -/
@[simp] theorem isBlank_trim (text : String) : isBlank (trim text) = isBlank text := by
  rw [Bool.eq_iff_iff]
  simp only [isBlank, trim, String.toList_ofList, List.all_eq_true]
  constructor
  · intro blank c member
    cases visible : isBlankChar c with
    | true => rfl
    | false => exact visible.symm.trans (blank c (mem_trimChars member visible))
  · intro blank c member
    exact blank c (trimChars_subset _ member)

@[simp] theorem isBlank_append (first second : String) :
    isBlank (first ++ second) = (isBlank first && isBlank second) := by
  rw [isBlank, String.toList_append, List.all_append, isBlank, isBlank]

/-- Trimming leaves nothing of a blank text, and of no other. -/
@[simp] theorem isEmpty_trim (text : String) : (trim text).isEmpty = isBlank text := by
  rw [Bool.eq_iff_iff, String.isEmpty_iff, trim, isBlank, List.all_eq_true,
    String.ofList_eq_empty_iff, trimChars_eq_nil_iff]

/-- Joined parts are visible as soon as the first of them is. -/
theorem isBlank_intercalate {separator part : String} {rest : List String}
    (visible : isBlank part = false) :
    isBlank (String.intercalate separator (part :: rest)) = false := by
  cases rest with
  | nil => rw [String.intercalate_singleton, visible]
  | cons next rest => simp [String.intercalate_cons_cons, visible]

/-- The printed characters of ASCII are visible. -/
theorem isBlankChar_eq_false_of_ascii {c : Char} (low : 0x20 < c.toNat) (high : c.toNat < 0x85) :
    isBlankChar c = false := by
  have outside : ∀ range ∈ blankRanges, ¬ (range.1 ≤ c.toNat ∧ c.toNat ≤ range.2) := by
    simp only [blankRanges, List.forall_mem_cons, List.not_mem_nil, false_implies, implies_true,
      and_true]
    omega
  simpa [isBlankChar] using outside

/-- The ranges of letters and digits, which core states for digits only. -/
theorem isAlphanum_iff {c : Char} :
    c.isAlphanum = true ↔
      'A'.val ≤ c.val ∧ c.val ≤ 'Z'.val ∨ 'a'.val ≤ c.val ∧ c.val ≤ 'z'.val ∨
        '0'.val ≤ c.val ∧ c.val ≤ '9'.val := by
  change (decide _ || decide _ && decide _ || decide _ && decide _) = true ↔ _
  simp only [Bool.or_eq_true, Bool.and_eq_true, decide_eq_true_eq, ge_iff_le, or_assoc]

theorem isBlankChar_of_isAlphanum {c : Char} (alphanumeric : c.isAlphanum = true) :
    isBlankChar c = false := by
  have ranges := isAlphanum_iff.mp alphanumeric
  simp only [UInt32.le_iff_toNat_le, Char.reduceVal, UInt32.reduceToNat,
    Char.toNat_val] at ranges
  apply isBlankChar_eq_false_of_ascii <;> omega

/-! ## Small letters -/

theorem toLower_toLower (c : Char) : c.toLower.toLower = c.toLower := by
  unfold Char.toLower
  grind

theorem isAlphanum_toLower {c : Char} (alphanumeric : c.isAlphanum = true) :
    c.toLower.isAlphanum = true := by
  unfold Char.toLower
  split
  · rename_i upper
    refine isAlphanum_iff.mpr (Or.inr (Or.inl ?_))
    simp only [Char.reduceVal] at upper ⊢
    grind
  · exact alphanumeric

/-- No other character becomes an underscore. -/
theorem toLower_eq_underscore_iff {c : Char} : c.toLower = '_' ↔ c = '_' := by
  unfold Char.toLower
  split
  · rename_i upper
    constructor
    · intro same
      have code := congrArg Char.val same
      simp only [Char.reduceVal] at code
      grind
    · rintro rfl
      exact absurd upper (by decide)
  · exact Iff.rfl

theorem underscore_mem_lower {text : String} (member : '_' ∈ text.toList) :
    '_' ∈ (lower text).toList := by
  rw [lower, String.toList_ofList]
  exact List.mem_map.mpr ⟨'_', member, rfl⟩

end Gazetteer.Text
