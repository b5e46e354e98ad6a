import TypeNotation.Span

/-!
# What can go wrong

Reading an annotation fails for a lexical or a syntactic reason, each with the bytes at which it
shows. `Failure` is the union of everything that this library reports; in it a lexical error stands
in a category of its own, also when it surfaced while a type was being read.
-/

namespace TypeNotation

/-! ## Lexical errors -/

/-- Why no token stands at a place. -/
inductive LexicalError
  /-- No token begins with the character. -/
  | unrecognizedCharacter (character : Char) (span : Span)
  /-- A string literal is opened but not closed; the span reaches to the end of the text. -/
  | unterminatedString (span : Span)
  deriving DecidableEq, Repr, Inhabited

namespace LexicalError

def span : LexicalError → Span
  | unrecognizedCharacter _ span | unterminatedString span => span

def message : LexicalError → String
  | unrecognizedCharacter character _ =>
    "unrecognized character '" ++ String.singleton character ++ "'"
  | unterminatedString _ => "unterminated string literal"

end LexicalError

/-! ## Syntax errors -/

/-- Why a text is no annotation. What was expected and what was found are given as messages show
them. -/
inductive SyntaxError
  | unexpectedToken (expected found : String) (span : Span)
  | unexpectedEnd (expected : String) (span : Span)
  | lexical (error : LexicalError)
  deriving DecidableEq, Repr, Inhabited

namespace SyntaxError

def span : SyntaxError → Span
  | unexpectedToken _ _ span | unexpectedEnd _ span => span
  | lexical error => error.span

def message : SyntaxError → String
  | unexpectedToken expected found _ => "expected " ++ expected ++ ", found " ++ found
  | unexpectedEnd expected _ => "expected " ++ expected ++ ", found end of input"
  | lexical error => error.message

end SyntaxError

/-! ## Errors of name maps -/

/-- Why a name map could not be had. -/
inductive NameMapError
  | unreadable (path message : String)
  | invalid (message : String)
  deriving DecidableEq, Repr, Inhabited

def NameMapError.message : NameMapError → String
  | unreadable path message => "cannot read " ++ path ++ ": " ++ message
  | invalid message => "invalid name map: " ++ message

/-! ## All failures -/

/-- Everything that this library reports as failed. -/
inductive Failure
  | lexical (error : LexicalError)
  | grammar (error : SyntaxError)
  | configuration (error : NameMapError)
  | files (message : String)
  | other (message : String)
  deriving DecidableEq, Repr, Inhabited

namespace Failure

/-- A syntax error as a failure; a lexical error keeps its own category. -/
def ofSyntaxError : SyntaxError → Failure
  | .lexical error => lexical error
  | error => grammar error

/-- Where the failure is, if it is in an annotation. -/
def span? : Failure → Option Span
  | lexical error => some error.span
  | grammar error => some error.span
  | configuration _ | files _ | other _ => none

/-- The failure in words, with its category. -/
def message : Failure → String
  | lexical error => "lexical error: " ++ error.message
  | grammar error => "syntax error: " ++ error.message
  | configuration error => "configuration error: " ++ error.message
  | files message => "I/O error: " ++ message
  | other message => message

end Failure

end TypeNotation
