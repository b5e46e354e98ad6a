import TypeNotation.Log
import TypeNotation.Parser.Productions

/-!
# Reading annotations

An annotation is a text that is a single type. Reading starts at any place of a text and tells the
type or the error, the decisions taken on parameters, and where the next reading would start: behind
the piece that was refused, or at the end.
-/

namespace TypeNotation

/-! ## One reading -/

/-- What came of reading an annotation. -/
structure Reading where
  result : Except SyntaxError TypeExpr
  /-- The decisions on parameters, in order. -/
  notes : List ParamNote
  /-- Where the next reading starts. -/
  next : Cursor

namespace Cursor

/-- The place behind the next `n` pieces. At the end of the text there is nothing to pass. -/
def skipPieces (cursor : Cursor) : Nat → Cursor
  | 0 => cursor
  | n + 1 => cursor.scan.2.skipPieces n

/-- Reads an annotation from a place to the end of the text. -/
def read (cursor : Cursor) : Reading :=
  let pieces := cursor.pieces
  let outcome := readWholeType pieces
  match outcome.result with
  | .ok (type, rest) =>
    ⟨.ok type, outcome.notes, cursor.skipPieces (pieces.length - rest.length + 1)⟩
  | .error refusal =>
    ⟨.error (refusal.error cursor.finish), outcome.notes,
      cursor.skipPieces (pieces.length - refusal.remaining.length + 1)⟩

/-- The results of the given number of readings, each from where the one before it stopped. -/
def readTimes (cursor : Cursor) : Nat → List (Except SyntaxError TypeExpr)
  | 0 => []
  | n + 1 => cursor.read.result :: cursor.read.next.readTimes n

end Cursor

/-- Reads a whole text as an annotation. -/
def Reading.ofSource (source : String) : Reading := (Cursor.atStart source.toList).read

/-- The type that an annotation denotes. -/
def parse (source : String) : Except SyntaxError TypeExpr := (Reading.ofSource source).result

/-! ## The log of a reading -/

/-- The part of the program that reads annotations, as it is named in log records. -/
def parserTarget : String := "annotype::parser::parser_impl"

/-- The part of the program that reads parameters, as it is named in log records. -/
def paramTarget : String := "annotype::parser::function_parser"

/-- A decision on a parameter, in words. -/
def ParamNote.record (note : ParamNote) : LogRecord :=
  ⟨.trace, paramTarget,
    "parameter at " ++ toString note.span.start ++ ".." ++ toString note.span.stop ++ " is " ++
      if note.named then "named" else "unnamed"⟩

/-- What is logged while an annotation is read: its text, the decisions, and the kind of the type if
there is one. -/
def Reading.log (source : String) (reading : Reading) : List LogRecord :=
  ⟨.debug, parserTarget, "parsing annotation " ++ quoted source⟩ :: reading.notes.map (·.record) ++
    match reading.result with
    | .ok type => [⟨.debug, parserTarget, "parsed " ++ type.kind ++ " annotation"⟩]
    | .error _ => []

end TypeNotation
