import Gazetteer.Text.Hex

/-!
# The texts of a settings file

Blank space, comments, keys and strings of the TOML notation.  Every reader takes its
part from the front of the characters and hands back the rest, or refuses.
-/

namespace Gazetteer.Toml

/-- Blank space inside a line. -/
def isBlank (c : Char) : Bool :=
  c = ' ' || c = '\t'

/-- The characters behind blank space. -/
def skipBlank (chars : List Char) : List Char :=
  chars.dropWhile isBlank

/-- Characters that may stand in a comment: no control characters but the tabulator. -/
def isCommentChar (c : Char) : Bool :=
  c = '\t' || (0x20 ≤ c.toNat && c.toNat ≠ 0x7F)

/-- The characters behind a comment, if there is one. -/
def skipComment : List Char → List Char
  | '#' :: rest => rest.dropWhile isCommentChar
  | chars => chars

/-- The characters behind a line break. -/
def lineBreak? : List Char → Option (List Char)
  | '\n' :: rest => some rest
  | '\r' :: '\n' :: rest => some rest
  | _ => none

/-- The characters behind the end of a line: blank space, a comment, and a line break unless
the file ends there. -/
def lineEnd? (chars : List Char) : Option (List Char) :=
  match skipComment (skipBlank chars) with
  | [] => some []
  | rest => lineBreak? rest

/-- The characters behind blank space, comments and line breaks. -/
def skipLines : (fuel : Nat) → List Char → List Char
  | 0, chars => chars
  | fuel + 1, chars =>
    let rest := skipComment (skipBlank chars)
    match lineBreak? rest with
    | some rest => skipLines fuel rest
    | none => rest

/-! ## Strings -/

/-- A character given by `count` hexadecimal digits; surrogates are no characters. -/
def codePoint? (count : Nat) (chars : List Char) : Option (Char × List Char) := do
  let digits := chars.take count
  if digits.length < count then none
  let values ← digits.mapM Text.hexDigit?
  let code := values.foldl (fun code digit => 16 * code + digit) 0
  if code.isValidChar then some (Char.ofNat code, chars.drop count) else none

/-- The character that an escape stands for. -/
def escape? : List Char → Option (Char × List Char)
  | 'b' :: rest => some ('\x08', rest)
  | 't' :: rest => some ('\t', rest)
  | 'n' :: rest => some ('\n', rest)
  | 'f' :: rest => some ('\x0c', rest)
  | 'r' :: rest => some ('\r', rest)
  | '"' :: rest => some ('"', rest)
  | '\\' :: rest => some ('\\', rest)
  | 'u' :: rest => codePoint? 4 rest
  | 'U' :: rest => codePoint? 8 rest
  | _ => none

/-- The body of a string in double quotes on one line. -/
def basicBody : (fuel : Nat) → List Char → Option (List Char × List Char)
  | 0, _ => none
  | _, [] => none
  | _, '"' :: rest => some ([], rest)
  | fuel + 1, '\\' :: rest => do
    let (c, rest) ← escape? rest
    let (tail, rest) ← basicBody fuel rest
    some (c :: tail, rest)
  | fuel + 1, c :: rest =>
    if isCommentChar c then do
      let (tail, rest) ← basicBody fuel rest
      some (c :: tail, rest)
    else none

/-- The body of a string in single quotes on one line. -/
def literalBody (chars : List Char) : Option (List Char × List Char) :=
  let body := chars.takeWhile fun c => isCommentChar c && c ≠ '\''
  match chars.drop body.length with
  | '\'' :: rest => some (body, rest)
  | _ => none

/-- The characters behind a backslash at the end of a line: the blank space and line breaks
up to the next character are left out. -/
def skipContinuation? (chars : List Char) : Option (List Char) := do
  let rest ← lineBreak? (skipBlank chars)
  let blank : Char → Bool := fun c => isBlank c || c = '\n'
  let rec skip : (fuel : Nat) → List Char → List Char
    | 0, chars => chars
    | fuel + 1, chars =>
      match chars with
      | '\r' :: '\n' :: rest => skip fuel rest
      | c :: rest => if blank c then skip fuel rest else c :: rest
      | [] => []
  some (skip rest.length rest)

/-- The number of quotes at the front. -/
def quoteRun (quote : Char) (chars : List Char) : Nat :=
  (chars.takeWhile (· = quote)).length

/-- The body of a string between three quotes, over any number of lines.  One or two quotes
may stand anywhere in it, also right before the closing three.  Only between double quotes
is a backslash special. -/
def multilineBody (quote : Char) : (fuel : Nat) → List Char → Option (List Char × List Char)
  | 0, _ => none
  | _, [] => none
  | fuel + 1, c :: rest =>
    let go (front : List Char) (rest : List Char) : Option (List Char × List Char) := do
      let (tail, rest) ← multilineBody quote fuel rest
      some (front ++ tail, rest)
    if c = quote then
      let run := quoteRun quote (c :: rest)
      if 3 ≤ run then
        let inside := min (run - 3) 2
        some (List.replicate inside quote, (c :: rest).drop (inside + 3))
      else go [c] rest
    else if c = '\\' ∧ quote = '"' then
      match skipContinuation? rest with
      | some rest => go [] rest
      | none =>
        match escape? rest with
        | some (escaped, rest) => go [escaped] rest
        | none => none
    else
      match lineBreak? (c :: rest) with
      | some rest => go ['\n'] rest
      | none => if isCommentChar c then go [c] rest else none

/-- A string of any of the four kinds.  A line break right behind three opening quotes is
left out. -/
def string? (chars : List Char) : Option (String × List Char) :=
  let multiline (quote : Char) (rest : List Char) : Option (String × List Char) :=
    let rest := (lineBreak? rest).getD rest
    (multilineBody quote (rest.length + 1) rest).map fun (body, rest) => (String.ofList body, rest)
  match chars with
  | '"' :: '"' :: '"' :: rest => multiline '"' rest
  | '\'' :: '\'' :: '\'' :: rest => multiline '\'' rest
  | '"' :: rest =>
    (basicBody (rest.length + 1) rest).map fun (body, rest) => (String.ofList body, rest)
  | '\'' :: rest => (literalBody rest).map fun (body, rest) => (String.ofList body, rest)
  | _ => none

/-! ## Keys -/

/-- Characters of a key without quotes. -/
def isBareKeyChar (c : Char) : Bool :=
  c.isAlphanum || c = '-' || c = '_'

/-- One key: a bare word, or a string on one line. -/
def simpleKey? (chars : List Char) : Option (String × List Char) :=
  match chars with
  | '"' :: rest =>
    (basicBody (rest.length + 1) rest).map fun (body, rest) => (String.ofList body, rest)
  | '\'' :: rest => (literalBody rest).map fun (body, rest) => (String.ofList body, rest)
  | chars =>
    let word := chars.takeWhile isBareKeyChar
    if word.isEmpty then none else some (String.ofList word, chars.drop word.length)

/-- Keys joined by points, with blank space around them. -/
def key? : (fuel : Nat) → List Char → Option (List String × List Char)
  | 0, _ => none
  | fuel + 1, chars => do
    let (first, rest) ← simpleKey? (skipBlank chars)
    match skipBlank rest with
    | '.' :: rest =>
      let (others, rest) ← key? fuel rest
      some (first :: others, rest)
    | rest => some ([first], rest)

end Gazetteer.Toml
