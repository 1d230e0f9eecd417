/-!
# Options of a command line

The words of a command line are read from left to right: options with values, switches, and
the name of a command, behind which other options apply.  A value may be joined to its
option with an equals sign, or to its single letter directly; otherwise it is the next word,
which must not look like an option unless the option says so.  No option may be given twice.
-/

namespace Gazetteer.Command

/-- How an option takes its value. -/
inductive Arity where
  /-- A switch, without a value. -/
  | switch
  /-- A value, which does not begin like an option. -/
  | value
  /-- A value of any form. -/
  | anyValue
deriving DecidableEq, Repr

/-- An option of a command. -/
structure OptionForm where
  long : String
  short : Option Char := none
  arity : Arity := .value
  /-- The values that make sense. -/
  accepts : String → Bool := fun _ => true

/-- What was given: options by their long names, switches with an empty value. -/
abbrev Given := List (String × String)

/-- How a line goes on behind its options. -/
inductive Continuation where
  | finished
  /-- Help is asked for. -/
  | help
  | command (name : String) (rest : List String)
deriving DecidableEq, Repr

/-- Whether a word looks like an option: it begins with a hyphen and goes on. -/
def looksLikeOption (word : List Char) : Bool :=
  match word with
  | '-' :: _ :: _ => true
  | _ => false

/-- Take an option with its value, if it makes sense and is given for the first time. -/
def give? (given : Given) (option : OptionForm) (value : String) : Option Given :=
  if given.any (fun entry => entry.1 == option.long) || !option.accepts value then none
  else some ((option.long, value) :: given)

/-- What reading one word comes to. -/
inductive Step where
  | taken (given : Given)
  /-- The value of an option is in the next word. -/
  | waiting (option : OptionForm)
  | help

/-- The letters behind a single hyphen: switches, and at most one option with its value. -/
def readLetters (options : List OptionForm) : Given → List Char → Option Step
  | given, [] => some (.taken given)
  | given, letter :: rest =>
    if letter = 'h' then some .help
    else
      match options.find? fun option => option.short == some letter with
      | none => none
      | some option =>
        if option.arity = .switch then
          match give? given option "" with
          | some given => readLetters options given rest
          | none => none
        else
          match rest with
          | [] => some (.waiting option)
          | '=' :: value => (give? given option (String.ofList value)).map .taken
          | value => (give? given option (String.ofList value)).map .taken

/-- The name behind two hyphens, with the value behind an equals sign if there is one. -/
def readName (options : List OptionForm) (given : Given) (name : List Char)
    (value : Option (List Char)) : Option Step :=
  if name = "help".toList then if value.isNone then some .help else none
  else
    match options.find? fun option => option.long.toList == name with
    | none => none
    | some option =>
      match option.arity, value with
      | .switch, none => (give? given option "").map .taken
      | .switch, some _ => none
      | _, none => some (.waiting option)
      | _, some value => (give? given option (String.ofList value)).map .taken

/-- A word that looks like an option. -/
def readOption (options : List OptionForm) (given : Given) (word : List Char) : Option Step :=
  match word with
  | '-' :: '-' :: rest =>
    let name := rest.takeWhile (· ≠ '=')
    readName options given name (rest.drop name.length).tail?
  | '-' :: letters => readLetters options given letters
  | _ => none

/-- Read words up to the name of a command, or to the end.  `waiting` is the option whose
value comes next. -/
def readWords (options : List OptionForm) (commands : List String) :
    (waiting : Option OptionForm) → Given → List String → Option (Given × Continuation)
  | none, given, [] => some (given, .finished)
  | some _, _, [] => none
  | some option, given, word :: rest =>
    if option.arity ≠ .anyValue && looksLikeOption word.toList then none
    else
      match give? given option word with
      | some given => readWords options commands none given rest
      | none => none
  | none, given, word :: rest =>
    if word ∈ commands then some (given, .command word rest)
    else if word = "--" then if rest.isEmpty then some (given, .finished) else none
    else if looksLikeOption word.toList then
      match readOption options given word.toList with
      | none => none
      | some .help => some (given, .help)
      | some (.waiting option) => readWords options commands (some option) given rest
      | some (.taken given) => readWords options commands none given rest
    else none

end Gazetteer.Command
