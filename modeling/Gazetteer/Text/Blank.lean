/-!
# Blank characters

The characters that count as blank space in names, headers and tags, and trimming a
text of them.  The class is the Unicode property `White_Space`, which is wider than
the class that core Lean gives a `Char`.
-/

namespace Gazetteer.Text

/-- The ranges of code points that have the property `White_Space`, both ends included. -/
def blankRanges : List (Nat × Nat) :=
  [(0x09, 0x0D), (0x20, 0x20), (0x85, 0x85), (0xA0, 0xA0), (0x1680, 0x1680),
    (0x2000, 0x200A), (0x2028, 0x2029), (0x202F, 0x202F), (0x205F, 0x205F), (0x3000, 0x3000)]

/-- Whether a character is blank space. -/
def isBlankChar (c : Char) : Bool :=
  blankRanges.any fun range => range.1 ≤ c.toNat && c.toNat ≤ range.2

/-- Characters without the blank space at both ends. -/
def trimChars (chars : List Char) : List Char :=
  (((chars.dropWhile isBlankChar).reverse).dropWhile isBlankChar).reverse

/-- A text without the blank space at both ends. -/
def trim (text : String) : String :=
  String.ofList (trimChars text.toList)

/-- A text is blank when it holds nothing but blank space. -/
def isBlank (text : String) : Bool :=
  text.toList.all isBlankChar

/-- Trimming leaves nothing exactly when all characters are blank. -/
@[simp] theorem trimChars_eq_nil_iff {chars : List Char} :
    trimChars chars = [] ↔ ∀ c ∈ chars, isBlankChar c = true := by
  have allBlank : ∀ l : List Char,
      l.dropWhile isBlankChar = [] ↔ ∀ c ∈ l, isBlankChar c = true := by
    intro l
    induction l with
    | nil => simp
    | cons c rest ih => by_cases blank : isBlankChar c = true <;> simp [blank, ih]
  constructor
  · intro h
    have h' : ((chars.dropWhile isBlankChar).reverse).dropWhile isBlankChar = [] := by
      simpa [trimChars] using h
    rw [allBlank] at h'
    intro c member
    induction chars with
    | nil => cases member
    | cons first rest ih =>
      by_cases blank : isBlankChar first = true
      · rcases List.mem_cons.1 member with rfl | inRest
        · exact blank
        · exact ih (by simpa [trimChars, blank] using h) (by simpa [blank] using h') inRest
      · exact absurd (h' first (by simp [blank])) blank
  · intro h
    rw [trimChars, (allBlank chars).2 h]
    rfl

end Gazetteer.Text
