import TypeNotation.Error.Basic

/-!
# Diagnostics

A diagnostic is a failure prepared for display beside the source: a headline, and a label for the
stretch of the source that it speaks of. A failure that is not in an annotation has no label.
-/

namespace TypeNotation

/-- A stretch of a source with a remark, which may be empty. -/
structure Label where
  span : Span
  remark : String
  deriving DecidableEq, Repr, Inhabited

/-- A failure prepared for display. -/
structure Diagnostic where
  message : String
  label : Option Label
  deriving DecidableEq, Repr, Inhabited

namespace Diagnostic

/-- The same diagnostic for a source that has `offset` more bytes in front. -/
def shift (offset : Nat) (diagnostic : Diagnostic) : Diagnostic :=
  { diagnostic with
    label := diagnostic.label.map fun label ↦ { label with span := label.span.shift offset } }

def ofLexicalError (error : LexicalError) : Diagnostic :=
  match error with
  | .unrecognizedCharacter _ span => ⟨error.message, some ⟨span, "not part of any token"⟩⟩
  | .unterminatedString span => ⟨error.message, some ⟨span, "string is never closed"⟩⟩

/-- How a syntax error is displayed. The end of the annotation is an empty place, which says enough
without a remark. -/
def ofSyntaxError (error : SyntaxError) : Diagnostic :=
  match error with
  | .unexpectedToken expected _ span => ⟨error.message, some ⟨span, "expected " ++ expected⟩⟩
  | .unexpectedEnd expected span =>
    ⟨"unexpected end of annotation, expected " ++ expected, some ⟨span, ""⟩⟩
  | .lexical error => ofLexicalError error

def ofFailure (failure : Failure) : Diagnostic :=
  match failure with
  | .lexical error => ofLexicalError error
  | .grammar error => ofSyntaxError error
  | .configuration _ | .files _ | .other _ => ⟨failure.message, none⟩

end Diagnostic

end TypeNotation
