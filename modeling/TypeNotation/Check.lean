import TypeNotation.Error.Diagnostic
import TypeNotation.Parser.Reading
import TypeNotation.Report.Lines
import TypeNotation.Text.Blank

/-!
# Checking a file of annotations

A file holds one annotation on each line. Lines that are blank and lines whose first character other
than white space is a `#` are passed over; every other line is read as an annotation by itself, and
what is wrong in it is reported at its place in the file.
-/

namespace TypeNotation

/-- A line without the carriage returns at its end. -/
def SourceLine.content (line : SourceLine) : List Char :=
  (line.text.reverse.dropWhile (· = '\r')).reverse

/-- Whether a line is blank or a comment. -/
def SourceLine.isSkipped (line : SourceLine) : Bool :=
  match line.content.dropWhile isBlank with
  | [] => true
  | c :: _ => c = '#'

/-- A line that has been read as an annotation. -/
structure CheckedLine where
  line : SourceLine
  reading : Reading

namespace CheckedLine

def ofLine (line : SourceLine) : CheckedLine := ⟨line, (Cursor.atStart line.content).read⟩

/-- What is wrong in the line, at its place in the file. -/
def diagnostic? (checked : CheckedLine) : Option Diagnostic :=
  match checked.reading.result with
  | .ok _ => none
  | .error error =>
    some ((Diagnostic.ofFailure (.ofSyntaxError error)).shift checked.line.start)

end CheckedLine

/-- The lines of a file that hold annotations, in order. -/
def checkLines (source : String) : List CheckedLine :=
  ((sourceLines source).filter fun line ↦ !line.isSkipped).map .ofLine

/-- What is wrong in a file, in order. -/
def checkDiagnostics (source : String) : List Diagnostic :=
  (checkLines source).filterMap CheckedLine.diagnostic?

end TypeNotation
