import TypeNotation.Span
import TypeNotation.Text.Quoted

/-!
# Tokens

The words of the type notation. A `Symbol` is a token that is always the same, whichever of its
spellings was used; the other three kinds of token carry a value. A string token carries its
decoded value, an identifier or a number the text as written.

The end of the input is not a token: where it matters, it is the absence of one.
-/

namespace TypeNotation

/-! ## Symbols -/

/-- Tokens without a value: the two keywords and the punctuation. -/
inductive Symbol
  | any
  | union
  | question
  | dot
  | ellipsis
  | comma
  | colon
  | leftParen
  | rightParen
  | leftBracket
  | rightBracket
  | leftBrace
  | rightBrace
  | less
  | greater
  | arrow
  deriving DecidableEq, Repr, Inhabited

/-- A symbol as it is named in messages: its usual spelling in single quotes. -/
def Symbol.name : Symbol → String
  | any => "'*'"
  | union => "'union'"
  | question => "'?'"
  | dot => "'.'"
  | ellipsis => "'...'"
  | comma => "','"
  | colon => "':'"
  | leftParen => "'('"
  | rightParen => "')'"
  | leftBracket => "'['"
  | rightBracket => "']'"
  | leftBrace => "'\x7b'"
  | rightBrace => "'\x7d'"
  | less => "'<'"
  | greater => "'>'"
  | arrow => "'→'"

/-! ## Tokens -/

inductive Token
  | symbol (symbol : Symbol)
  | identifier (name : String)
  | number (text : String)
  | string (value : String)
  deriving DecidableEq, Repr, Inhabited

namespace Token

/-- What an identifier, a number or a string stands for. -/
def value? : Token → Option String
  | symbol _ => none
  | identifier value | number value | string value => some value

/-- The kind of a token, without its value. -/
def kindName : Token → String
  | symbol s => s.name
  | identifier _ => "identifier"
  | number _ => "number literal"
  | string _ => "string literal"

/-- A token as it is shown in messages, with its value. -/
def describe : Token → String
  | symbol s => s.name
  | identifier name => "identifier `" ++ name ++ "`"
  | number text => "number `" ++ text ++ "`"
  | string value => "string " ++ quoted value

end Token

/-- How the absence of a further token is shown in messages. -/
def endOfInput : String := "end of input"

/-- A token with the bytes that it occupies. -/
structure Located where
  token : Token
  span : Span
  deriving DecidableEq, Repr, Inhabited

end TypeNotation
