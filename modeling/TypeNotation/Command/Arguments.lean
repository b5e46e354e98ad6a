/-!
# Command line arguments

An invocation names one of five commands, gives it one text or path, and may add options. Options
may stand before or behind the text, and `--verbose` before the command as well; behind `--` nothing
is an option. A word that starts with a hyphen is an option unless the hyphen is all of it, so it
can be a value only behind an equals sign. Each option may be given once; `--verbose` once before
the command and once behind it.

Whatever does not fit is a usage error. There is only one, since all are answered alike.
-/

namespace TypeNotation

/-! ## Invocations -/

/-- What the program is asked to do. -/
inductive Command
  /-- Show the tree of an annotation, as an outline or as JSON. -/
  | parse (source : String) (json : Bool)
  /-- List the tokens of an annotation. -/
  | tokens (source : String)
  /-- Write an annotation in canonical form. -/
  | fmt (source : String)
  /-- Check a file of annotations. -/
  | check (path : String)
  /-- Render an annotation, possibly with a name map and as the declaration of an alias. -/
  | render (source : String) (names aliasName : Option String)
  deriving DecidableEq, Repr, Inhabited

/-- A command and how much to say about it. -/
structure Invocation where
  command : Command
  verbose : Bool
  deriving DecidableEq, Repr, Inhabited

/-- What the arguments ask for. -/
inductive Request
  | run (invocation : Invocation)
  | version
  deriving DecidableEq, Repr, Inhabited

/-! ## Words -/

/-- A word of the command line. -/
inductive Word
  /-- The mark behind which nothing is an option. -/
  | terminator
  /-- An option with a long name, and its value if one is attached. -/
  | long (name : String) (value : Option String)
  /-- Options with one letter each. -/
  | short (letters : List Char)
  | plain (text : String)
  deriving DecidableEq, Repr

def Word.ofString (word : String) : Word :=
  match word.toList with
  | ['-', '-'] => terminator
  | '-' :: '-' :: rest =>
    match rest.dropWhile (· ≠ '=') with
    | [] => long (String.ofList rest) none
    | _ :: value => long (String.ofList (rest.takeWhile (· ≠ '='))) (some (String.ofList value))
  | '-' :: letter :: letters => short (letter :: letters)
  | _ => plain word

/-! ## Arguments of a command -/

inductive CommandName
  | parse
  | tokens
  | fmt
  | check
  | render
  deriving DecidableEq, Repr

def CommandName.ofString? (name : String) : Option CommandName :=
  if name = "parse" then some parse
  else if name = "tokens" then some tokens
  else if name = "fmt" then some fmt
  else if name = "check" then some check
  else if name = "render" then some render
  else none

/-- The arguments of a command read so far. -/
structure Given where
  verbose : Bool := false
  json : Bool := false
  names : Option String := none
  aliasName : Option String := none
  /-- The words that are no options, in order. -/
  operands : List String := []
  deriving DecidableEq, Repr, Inhabited

namespace Given

/-- Adds an option that takes no value. -/
def addFlag? (given : Given) (command : CommandName) (name : String) : Option Given :=
  if name = "verbose" then if given.verbose then none else some { given with verbose := true }
  else if name = "json" ∧ command = .parse then
    if given.json then none else some { given with json := true }
  else none

/-- Whether a command has an option of this name that takes a value. -/
def takesValue (command : CommandName) (name : String) : Bool :=
  command = .render && (name = "names" || name = "alias")

/-- Adds an option of the command `render` with its value. -/
def addValue? (given : Given) (name value : String) : Option Given :=
  if name = "names" then
    if given.names.isSome then none else some { given with names := some value }
  else if name = "alias" then
    if given.aliasName.isSome then none else some { given with aliasName := some value }
  else none

def addAll? (given : Given) (command : CommandName) : List String → Option Given
  | [] => some given
  | word :: words =>
    match Word.ofString word with
    | .terminator => some { given with operands := given.operands ++ words }
    | .plain text =>
      { given with operands := given.operands ++ [text] }.addAll? command words
    | .short letters =>
      if letters = ['v'] then (given.addFlag? command "verbose").bind (·.addAll? command words)
      else none
    | .long name none =>
      if takesValue command name then
        match words with
        | [] => none
        | next :: others =>
          match Word.ofString next with
          | .plain value => (given.addValue? name value).bind (·.addAll? command others)
          | _ => none
      else (given.addFlag? command name).bind (·.addAll? command words)
    | .long name (some value) =>
      if takesValue command name then
        (given.addValue? name value).bind (·.addAll? command words)
      else none

/-- The command with the given arguments. A path may not be empty. -/
def toCommand? (given : Given) (name : CommandName) : Option Command :=
  match given.operands with
  | [operand] =>
    match name with
    | .parse => some (.parse operand given.json)
    | .tokens => some (.tokens operand)
    | .fmt => some (.fmt operand)
    | .check => if operand = "" then none else some (.check operand)
    | .render =>
      if given.names = some "" then none else some (.render operand given.names given.aliasName)
  | _ => none

end Given

/-! ## Arguments of the program -/

/-- Letters in front of the command: whether the version is asked for, and whether to be verbose. -/
def leadingLetters? (verbose : Bool) : List Char → Option (Bool × Bool)
  | [] => some (false, verbose)
  | letter :: letters =>
    if letter = 'V' then some (true, verbose)
    else if letter = 'v' ∧ verbose = false then leadingLetters? true letters
    else none

/-- What the arguments ask for, given whether `--verbose` has been met; nothing if they do not
fit. -/
def Request.ofWords? (verbose : Bool) : List String → Option Request
  | [] => none
  | word :: words =>
    match Word.ofString word with
    | .plain name => do
      let command ← CommandName.ofString? name
      let given ← Given.addAll? {} command words
      let command ← given.toCommand? command
      some (.run ⟨command, verbose || given.verbose⟩)
    | .long name none =>
      if name = "version" then some version
      else if name = "verbose" ∧ verbose = false then ofWords? true words
      else none
    | .short letters =>
      match leadingLetters? verbose letters with
      | some (true, _) => some version
      | some (false, verbose) => ofWords? verbose words
      | none => none
    | _ => none

/-- What the arguments of the program ask for; nothing if they do not fit. -/
def Request.ofArguments? (arguments : List String) : Option Request :=
  ofWords? false arguments

end TypeNotation
