import TypeNotation.Error.Diagnostic
import TypeNotation.Report.Lines
import TypeNotation.Text.Blank
import TypeNotation.Text.Width

/-!
# Framed diagnostics

A diagnostic is shown with the lines of the source that its label covers, in a frame that numbers
them. A label within one line is underlined with carets, one for each column. A label over several
lines is drawn as a bar beside them, which bends towards the character at which the label begins and
the one at which it ends; of the lines between, only the first three and the last are shown, unless
that would leave out a single line.

Lines are shown without carriage returns and zero characters at their end, and with tabs as spaces.
Everything is aligned by display width. The end of a line counts as one more column, so that a label
there has something to point at, and an empty label covers one byte.
-/

namespace TypeNotation

/-! ## Columns -/

/-- A character of a shown line. -/
structure Cell where
  char : Char
  /-- The number of bytes in front of the character. -/
  offset : Nat
  /-- The number of columns that it takes. -/
  width : Nat
  deriving DecidableEq, Repr

/-- The characters of a line, of which the first stands at the given byte and column. -/
def cellsFrom (offset column : Nat) : List Char → List Cell
  | [] => []
  | c :: rest =>
    let width := widthAt column c
    ⟨c, offset, width⟩ :: cellsFrom (offset + c.utf8Size) (column + width) rest

def cells (line : List Char) : List Cell := cellsFrom 0 0 line

def shownText (line : List Char) : List Char :=
  (line.reverse.dropWhile fun c ↦ c = '\r' || c = '\x00').reverse

/-- A line with its tabs as spaces. -/
def expandTabs (line : List Char) : List Char :=
  (cells line).flatMap fun cell ↦
    if cell.char = '\t' then List.replicate cell.width ' ' else [cell.char]

/-- Dashes below the characters that begin in front of the byte `stop`. -/
def dashes (line : List Char) (stop : Nat) : List Char :=
  ((cells line).takeWhile (·.offset < stop)).flatMap fun cell ↦ List.replicate cell.width '─'

/-- The end of a line, as one more character of it. -/
def endCell (line : List Char) : Cell := ⟨'\x00', utf8Length line, 1⟩

/-- The carets below the bytes from `start` to `stop`, with the spaces in front of them. -/
def carets (line : List Char) (start stop : Nat) : List Char :=
  (cells line ++ [endCell line]).flatMap fun cell ↦
    -- a character is underlined as a whole if any of its bytes is meant
    if max start cell.offset < min stop (cell.offset + cell.char.utf8Size) then
      List.replicate cell.width '^'
    else if cell.offset < stop then List.replicate cell.width ' '
    else []

/-- The number of bytes of the white space at the beginning of a line. -/
def indentation (line : List Char) : Nat := utf8Length (line.takeWhile isBlank)

/-! ## Parts of the frame -/

/-- A remark behind a drawing, if there is one. -/
def behindDrawing (remark : String) : String := if remark.isEmpty then "" else " " ++ remark

/-- A line of the frame without a number. -/
def plainRow (columns : Nat) (content : String) : String :=
  String.ofList (List.replicate columns ' ') ++ " │" ++ content

/-- A line of the frame with a line of the source, whose number is aligned right. The gutter stands
between the frame and the line. -/
def sourceRow (columns : Nat) (line : SourceLine) (gutter : String) : String :=
  let number := toString line.number
  String.ofList (List.replicate (columns - number.length) ' ') ++ number ++ " │" ++ gutter ++ " " ++
    String.ofList (expandTabs (shownText line.text))

/-! ## Labels -/

/-- The rows of a label within a line. -/
def rowsWithin (columns : Nat) (line : SourceLine) (label : Label) : List String :=
  let start := label.span.start - line.start
  let stop := max (label.span.stop - line.start) (start + 1)
  [plainRow columns "", sourceRow columns line "",
    plainRow columns (" " ++ String.ofList (carets (shownText line.text) start stop) ++
      behindDrawing label.remark)]

/-- The rows of the first line of a label. The bar begins beside the line when only white space
stands in front of the label, and otherwise below it. -/
def rowsAtStart (columns : Nat) (line : SourceLine) (start : Nat) : List String :=
  let text := shownText line.text
  if start ≤ indentation text then [sourceRow columns line " ╭"]
  else
    [sourceRow columns line "  ",
      plainRow columns (" ╭" ++ String.ofList (dashes text (start + 1)) ++ "^")]

/-- The rows of the lines between the first and the last line of a label. -/
def rowsBetween (columns : Nat) (lines : List SourceLine) : List String :=
  let rows := lines.map fun line ↦ sourceRow columns line " │"
  -- of five lines only one would be left out, and its row would be taken by the dots
  if rows.length ≤ 5 then rows
  else
    rows.take 3 ++ [String.ofList (List.replicate columns ' ') ++ " · │"] ++
      rows.drop (rows.length - 1)

/-- The rows of the last line of a label. -/
def rowsAtEnd (columns : Nat) (line : SourceLine) (stop : Nat) (remark : String) : List String :=
  [sourceRow columns line " │",
    plainRow columns (" ╰" ++ String.ofList (dashes (shownText line.text) stop) ++ "^" ++
      behindDrawing remark)]

/-- The rows of a label over several lines. -/
def rowsAcross (columns : Nat) (first : SourceLine) (between : List SourceLine) (last : SourceLine)
    (label : Label) : List String :=
  plainRow columns "  " :: rowsAtStart columns first (label.span.start - first.start) ++
    rowsBetween columns between ++
    rowsAtEnd columns last (label.span.stop - last.start) label.remark

/-- The rows of a label in a source, from the name of the source on. -/
def labelRows (name : String) (lines : List SourceLine) (label : Label) : List String :=
  match linesFrom label.span.start lines with
  | [] => []
  | first :: others =>
    let last := ((linesFrom label.span.stop (first :: others)).head?).getD first
    let columns := (toString last.number).length
    let column := 1 + charsBefore (label.span.start - first.start) first.text
    let locus := String.ofList (List.replicate columns ' ') ++ " ┌─ " ++ name ++ ":" ++
      toString first.number ++ ":" ++ toString column
    locus ::
      if last.number = first.number then rowsWithin columns first label
      else
        rowsAcross columns first (others.takeWhile (·.number < last.number)) last label

/-! ## Diagnostics -/

/-- The frame of a diagnostic in a source with the given name. -/
def Diagnostic.frame (name source : String) (diagnostic : Diagnostic) : String :=
  let rows := match diagnostic.label with
    | none => []
    | some label => labelRows name (sourceLines source) label
  "\n".intercalate (("error: " ++ diagnostic.message) :: rows) ++ "\n\n"

theorem exists_intercalate_eq (first : String) (rows : List String) :
    ∃ rest, "\n".intercalate (first :: rows) ++ "\n\n" = first ++ "\n" ++ rest := by
  cases rows with
  | nil =>
    refine ⟨"\n", ?_⟩
    rw [String.intercalate_singleton, String.append_assoc]
    rfl
  | cons row rows =>
    refine ⟨"\n".intercalate (row :: rows) ++ "\n\n", ?_⟩
    rw [String.intercalate_cons_cons, String.append_assoc]

/-- The first line of a frame is the headline, and it says that this is an error. -/
theorem Diagnostic.exists_frame_eq (name source : String) (diagnostic : Diagnostic) :
    ∃ rest, diagnostic.frame name source = "error: " ++ diagnostic.message ++ "\n" ++ rest :=
  exists_intercalate_eq _ _

end TypeNotation
