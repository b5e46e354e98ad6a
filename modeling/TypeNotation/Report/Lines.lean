import TypeNotation.Span
import TypeNotation.Text.Split

/-!
# Lines of a source

A source is cut into lines at its line feeds and nowhere else. Behind a final line feed there is one
more line, which is empty, so that every place in the source, its end included, is on exactly one
line: the last one that does not begin behind it.
-/

namespace TypeNotation

/-- Cuts a text at its line feeds, which are left out. -/
def splitLines (text : List Char) : List (List Char) := splitAtEach '\n' text

/-- A line with its place in a source. -/
structure SourceLine where
  /-- The number of the line, counted from one. -/
  number : Nat
  /-- The number of bytes in front of the line. -/
  start : Nat
  /-- The line without its line feed. -/
  text : List Char
  deriving DecidableEq, Repr, Inhabited

/-- Lines with their places, the first of which has the given number and start. -/
def placeLines (number start : Nat) : List (List Char) → List SourceLine
  | [] => []
  | text :: lines =>
    ⟨number, start, text⟩ :: placeLines (number + 1) (start + utf8Length text + 1) lines

def sourceLines (source : String) : List SourceLine := placeLines 1 0 (splitLines source.toList)

/-- The lines from the one with the place `offset` on. -/
def linesFrom (offset : Nat) : List SourceLine → List SourceLine
  | line :: next :: lines =>
    if next.start ≤ offset then linesFrom offset (next :: lines) else line :: next :: lines
  | lines => lines

/-- The number of characters of a text that begin in front of the byte `offset`. -/
def charsBefore (offset : Nat) : List Char → Nat
  | [] => 0
  | c :: rest => if offset = 0 then 0 else 1 + charsBefore (offset - c.utf8Size) rest

end TypeNotation
