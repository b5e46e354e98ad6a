import TypeNotation.Span

/-!
# Errors in JSON text

A text may fail to be JSON, or be JSON of another shape than the reader wants; both are found in one
pass from left to right, and the first one met is the error. Its place is kept as the number of
bytes from it to the end of the text, which needs no knowledge of what was read before; the line and
the column come out once the whole text is at hand.
-/

namespace TypeNotation

/-! ## Causes -/

/-- What is wrong with a JSON text. -/
inductive JsonFault
  | endInValue
  | endInList
  | endInObject
  | endInString
  | expectedValue
  | expectedColon
  | expectedCommaOrBracket
  | expectedCommaOrBrace
  | expectedWord
  | keyNotString
  | trailingComma
  | trailingCharacters
  | invalidEscape
  /-- The first half of a surrogate pair without a second escape behind it. -/
  | halfPair
  /-- The second half of a surrogate pair in a place where a character has to begin, or a pair whose
  second half is no such half. -/
  | loneSurrogate
  | controlCharacter
  | invalidNumber
  | numberOutOfRange
  | tooDeep
  | invalidType (found expected : String)
  | invalidLength (length : Nat) (expected : String)
  | missingField (name : String)
  | duplicateField (name : String)
  | unknownVariant (name : String) (known : List String)
  | noVariantMatches (type : String)
  deriving DecidableEq, Repr, Inhabited

def JsonFault.message : JsonFault → String
  | endInValue => "EOF while parsing a value"
  | endInList => "EOF while parsing a list"
  | endInObject => "EOF while parsing an object"
  | endInString => "EOF while parsing a string"
  | expectedValue => "expected value"
  | expectedColon => "expected `:`"
  | expectedCommaOrBracket => "expected `,` or `]`"
  | expectedCommaOrBrace => "expected `,` or `\x7d`"
  | expectedWord => "expected ident"
  | keyNotString => "key must be a string"
  | trailingComma => "trailing comma"
  | trailingCharacters => "trailing characters"
  | invalidEscape => "invalid escape"
  | halfPair => "unexpected end of hex escape"
  | loneSurrogate => "lone leading surrogate in hex escape"
  | controlCharacter => "control character (\\u0000-\\u001F) found while parsing a string"
  | invalidNumber => "invalid number"
  | numberOutOfRange => "number out of range"
  | tooDeep => "recursion limit exceeded"
  | invalidType found expected => "invalid type: " ++ found ++ ", expected " ++ expected
  | invalidLength length expected =>
    "invalid length " ++ toString length ++ ", expected " ++ expected
  | missingField name => "missing field `" ++ name ++ "`"
  | duplicateField name => "duplicate field `" ++ name ++ "`"
  | unknownVariant name known =>
    "unknown variant `" ++ name ++ "`, expected one of " ++
      ", ".intercalate (known.map fun variant ↦ "`" ++ variant ++ "`")
  | noVariantMatches type => "data did not match any variant of untagged enum " ++ type

/-! ## Places -/

/-- A fault with its place. -/
structure JsonError where
  fault : JsonFault
  /-- The number of bytes from the place of the fault to the end of the text. -/
  left : Nat
  deriving DecidableEq, Repr, Inhabited

namespace JsonError

/-- A fault in front of what is left. -/
def before (fault : JsonFault) (rest : List Char) : JsonError := ⟨fault, utf8Length rest⟩

/-- A fault at the next byte of what is left, which counts as read; at the end there is none. -/
def inside (fault : JsonFault) (rest : List Char) : JsonError := ⟨fault, utf8Length rest - 1⟩

/-- The line and the column `index` bytes further on in `text`, which starts at the given line and
column. Columns count bytes. -/
def placeFrom (line column index : Nat) : List Char → Nat × Nat
  | [] => (line, column)
  | c :: rest =>
    if index = 0 then (line, column)
    else if c = '\n' then placeFrom (line + 1) 0 (index - 1) rest
    else placeFrom line (column + min index c.utf8Size) (index - c.utf8Size) rest

/-- The line, counted from one, and the column of an error in the text. -/
def place (error : JsonError) (text : String) : Nat × Nat :=
  placeFrom 1 0 (utf8Length text.toList - error.left) text.toList

/-- The error in words, with its place in the text. -/
def describe (error : JsonError) (text : String) : String :=
  let (line, column) := error.place text
  error.fault.message ++ " at line " ++ toString line ++ " column " ++ toString column

end JsonError

end TypeNotation
