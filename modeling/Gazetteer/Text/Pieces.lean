/-!
# Cutting texts apart

Texts are cut at a separator character, and letters are folded to lower case in the
ASCII range only: tags, headers and parameters are compared that way, so that `É`
stays `É`.
-/

namespace Gazetteer.Text

/-- The pieces between the separators: always one more than there are separators. -/
def pieces (separator : Char) : List Char → List (List Char)
  | [] => [[]]
  | c :: rest =>
    match pieces separator rest with
    | [] => [[c]]
    | piece :: others => if c = separator then [] :: piece :: others else (c :: piece) :: others

/-- There is always a first piece. -/
theorem pieces_ne_nil (separator : Char) (chars : List Char) : pieces separator chars ≠ [] := by
  cases chars with
  | nil => simp [pieces]
  | cons c rest =>
    rw [pieces]
    split
    · simp
    · split <;> simp

/-- Cut at the first separator; nothing when it does not occur. -/
def cut? (separator : Char) : List Char → Option (List Char × List Char)
  | [] => none
  | c :: rest =>
    if c = separator then some ([], rest)
    else (cut? separator rest).map fun (before, after) => (c :: before, after)

/-- What follows `start`, if the characters begin with it. -/
def after? : (start chars : List Char) → Option (List Char)
  | [], chars => some chars
  | _ :: _, [] => none
  | s :: start, c :: chars => if s = c then after? start chars else none

/-- What follows `start` in a text, if the text begins with it. -/
def afterText? (start text : String) : Option String :=
  (after? start.toList text.toList).map String.ofList

/-- Whether `part` occurs somewhere among the characters. -/
def occursIn (part : List Char) : List Char → Bool
  | [] => part.isEmpty
  | c :: rest => part.isPrefixOf (c :: rest) || occursIn part rest

/-- Letters `A` to `Z` become small; every other character stays. -/
def lower (text : String) : String :=
  String.ofList (text.toList.map Char.toLower)

theorem pieces_cons_of_ne {separator c : Char} {rest piece : List Char}
    {others : List (List Char)} (ne : c ≠ separator)
    (tail : pieces separator rest = piece :: others) :
    pieces separator (c :: rest) = (c :: piece) :: others := by
  simp [pieces, tail, ne]

theorem pieces_separator_cons (separator : Char) (rest : List Char) :
    pieces separator (separator :: rest) = [] :: pieces separator rest := by
  rw [pieces]
  split
  · exact absurd ‹_› (pieces_ne_nil separator rest)
  · simp [*]

/-- The two parts of a cut, joined by the separator, are the text that was cut. -/
theorem eq_of_cut? {separator : Char} {chars before after : List Char}
    (h : cut? separator chars = some (before, after)) :
    chars = before ++ separator :: after := by
  induction chars generalizing before with
  | nil => simp [cut?] at h
  | cons c rest ih =>
    by_cases equal : c = separator
    · simp [cut?, equal] at h
      obtain ⟨rfl, rfl⟩ := h
      simp [equal]
    · simp only [cut?, equal, if_false, Option.map_eq_some_iff, Prod.mk.injEq, Prod.exists] at h
      obtain ⟨front, back, cutRest, rfl, rfl⟩ := h
      simp [ih cutRest]

end Gazetteer.Text
