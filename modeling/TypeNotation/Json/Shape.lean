import TypeNotation.Json.Number
import TypeNotation.Text.Quoted

/-!
# JSON of a given shape

Readers for values that have to be of one kind. A value of another kind is an error that names what
was found; to name it, it is read as far as needed, so that a malformed number, word or string is
reported as such. An array or object is named without being read.

Arrays and objects may be nested only so deep. The number of levels that may still be opened is
passed down explicitly, and a reader for something that contains values of its own sort recurses
on it.
-/

namespace TypeNotation

/-- How deep arrays and objects may be nested in a text. -/
def maxLevels : Nat := 127

/-! ## Values of the wrong kind -/

/-- The error for a value that is not what the reader wants, given the text that starts with it. -/
def wrongKind (expected : String) (input : List Char) : JsonError :=
  let found (name : String) (rest : List Char) : JsonError :=
    .before (.invalidType name expected) rest
  match input with
  | 'n' :: rest => match readLetters ['u', 'l', 'l'] rest with
    | .ok left => found "null" left.1
    | .error error => error
  | 't' :: rest => match readLetters ['r', 'u', 'e'] rest with
    | .ok left => found "boolean `true`" left.1
    | .error error => error
  | 'f' :: rest => match readLetters ['a', 'l', 's', 'e'] rest with
    | .ok left => found "boolean `false`" left.1
    | .error error => error
  | '"' :: rest => match readStringBody rest with
    | .ok taken => found ("string " ++ quoted (String.ofList taken.value)) taken.rest
    | .error error => error
  | '-' :: rest => match readNumber true rest with
    | .ok taken => found taken.value.describe taken.rest
    | .error error => error
  | '[' :: _ => found "sequence" input
  | '{' :: _ => found "map" input
  | c :: _ =>
    if c.isDigit then match readNumber false input with
      | .ok taken => found taken.value.describe taken.rest
      | .error error => error
    else .inside .expectedValue input
  | [] => .before .endInValue []

/-! ## Scalars -/

def readText : JsonReader String := afterSpace fun input ↦
  match input with
  | '"' :: rest => (readStringBody rest).map fun taken ↦
      (taken.map String.ofList).within (length_le_behind rest)
  | input => .error (wrongKind "a string" input)

def readBool : JsonReader Bool := afterSpace fun input ↦
  match input with
  | 't' :: rest => (readLetters ['r', 'u', 'e'] rest).map fun left ↦
      ⟨true, left.1, length_lt_of_letters left⟩
  | 'f' :: rest => (readLetters ['a', 'l', 's', 'e'] rest).map fun left ↦
      ⟨false, left.1, length_lt_of_letters left⟩
  | input => .error (wrongKind "a boolean" input)

/-- Reads a null where nothing else will do. -/
def readNull : JsonReader Unit := afterSpace fun input ↦
  match input with
  | 'n' :: rest => (readLetters ['u', 'l', 'l'] rest).map fun left ↦
      ⟨(), left.1, length_lt_of_letters left⟩
  | input => .error (wrongKind "unit" input)

/-- Reads a null as nothing, and anything else with the given reader. -/
def readNullable {α : Type} (reader : JsonReader α) : JsonReader (Option α) :=
  afterSpace fun input ↦
    match input with
    | 'n' :: rest => (readLetters ['u', 'l', 'l'] rest).map fun left ↦
        ⟨none, left.1, length_lt_of_letters left⟩
    | input => (reader input).map (·.map some)

/-! ## Arrays and records -/

/-- Reads an array. The reader for the items is given the levels that are left inside. -/
def readArray {α : Type} (levels : Nat) (item : (inner : Nat) → inner < levels → JsonReader α) :
    JsonReader (List α) := afterSpace fun input ↦
  match input with
  | '[' :: rest => match levels, item with
    | 0, _ => .error (.inside .tooDeep input)
    | inner + 1, item =>
      (readArrayItems (item inner (Nat.lt_succ_self _)) true rest).map
        (·.within (length_le_behind rest))
  | input => .error (wrongKind "a sequence" input)

/-- Reads a record, which may be written as an array of its fields in order or as an object. Either
reader starts behind the opening bracket and is given the levels that are left inside. -/
def readRecord {α : Type} (name : String) (levels : Nat)
    (ordered keyed : (inner : Nat) → inner < levels → JsonReader α) : JsonReader α :=
  afterSpace fun input ↦
    match input with
    | '[' :: rest => match levels, ordered with
      | 0, _ => .error (.inside .tooDeep input)
      | inner + 1, ordered =>
        (ordered inner (Nat.lt_succ_self _) rest).map (·.within (length_le_behind rest))
    | '{' :: rest => match levels, keyed with
      | 0, _ => .error (.inside .tooDeep input)
      | inner + 1, keyed =>
        (keyed inner (Nat.lt_succ_self _) rest).map (·.within (length_le_behind rest))
    | input => .error (wrongKind ("struct " ++ name) input)

/-- Reads the next field of a record written as an array, if the array goes on. -/
def readOrderedField {α : Type} (first : Bool) (field : JsonReader α) (input : List Char) :
    Except JsonError (Taken (Option α) (input.length + 1)) := do
  match ← nextItem first input with
  | none => .ok ⟨none, input, length_lt_behind input⟩
  | some start =>
    (field start.1).map fun taken ↦
      (taken.map some).within (length_le_of_item start)

/-- Reads the value of a field behind its key. -/
def readField {α : Type} (field : JsonReader α) : JsonReader α := fun input ↦ do
  let colon ← readColon input
  (field colon.rest).map (·.within (Nat.le_of_lt colon.shorter))

end TypeNotation
