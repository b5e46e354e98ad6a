import TypeNotation.Error.Basic
import TypeNotation.Token.Lexeme

/-!
# Cursors and scanning

A cursor is a place in an annotation together with the text from there on. Scanning skips layout and
finds either a token, or a fault, or the end of the text; in each case it says where scanning goes
on. A fault is not the end: scanning may continue behind it.

Everything that is read from an annotation is read from the list `Cursor.pieces` of its tokens and
faults, which is finite because each piece leaves less text behind.
-/

namespace TypeNotation

/-- What an annotation is made of: tokens, and faults where no token could be read. -/
abbrev Piece := Except LexicalError Located

/-! ## Cursors -/

/-- A place in a text. -/
structure Cursor where
  /-- The number of bytes in front of the place. -/
  offset : Nat
  /-- The text from the place on. -/
  rest : List Char
  deriving DecidableEq, Repr, Inhabited

namespace Cursor

def atStart (text : List Char) : Cursor := ⟨0, text⟩

/-- The place `n` characters further on. -/
def advance (cursor : Cursor) (n : Nat) : Cursor :=
  ⟨cursor.offset + utf8Length (cursor.rest.take n), cursor.rest.drop n⟩

/-- The number of bytes in front of the end of the text. -/
def finish (cursor : Cursor) : Nat := cursor.offset + utf8Length cursor.rest

/-- The first place from here on where no layout stands. -/
def skipLayout (cursor : Cursor) : Cursor := cursor.advance (runLength isLayout cursor.rest)

@[simp] theorem rest_advance (cursor : Cursor) (n : Nat) :
    (cursor.advance n).rest = cursor.rest.drop n := rfl

@[simp] theorem finish_advance (cursor : Cursor) (n : Nat) :
    (cursor.advance n).finish = cursor.finish := by
  have := utf8Length_take_add_drop n cursor.rest
  simp only [finish, advance]
  omega

theorem length_skipLayout_le (cursor : Cursor) :
    cursor.skipLayout.rest.length ≤ cursor.rest.length := by
  simp [skipLayout]

/-! ## Scanning -/

/-- The piece at a place where no layout stands, given the first character there, and the number of
characters that it takes. A string literal that is not closed takes what belongs to it; any other
fault takes one character. -/
def pieceAt (cursor : Cursor) (first : Char) : Piece × Nat :=
  match lexemeAt? cursor.rest with
  | some (token, n) => (.ok ⟨token, cursor.offset, (cursor.advance n).offset⟩, n)
  | none =>
    if isQuote first then
      (.error (.unterminatedString ⟨cursor.offset, cursor.finish⟩),
        1 + (stringReach first (cursor.rest.drop 1)).length)
    else
      (.error (.unrecognizedCharacter first ⟨cursor.offset, cursor.offset + first.utf8Size⟩), 1)

theorem pieceAt_pos (cursor : Cursor) (first : Char) : 0 < (cursor.pieceAt first).2 := by
  unfold pieceAt
  split
  · exact lexemeAt?_pos ‹_›
  · split <;> dsimp only <;> omega

/-- The next piece, or none at the end of the text, and the place behind it. -/
def scan (cursor : Cursor) : Option Piece × Cursor :=
  match cursor.skipLayout.rest with
  | [] => (none, cursor.skipLayout)
  | first :: _ =>
    let (piece, n) := cursor.skipLayout.pieceAt first
    (some piece, cursor.skipLayout.advance n)

theorem length_scan_lt {cursor next : Cursor} {piece : Piece}
    (h : cursor.scan = (some piece, next)) : next.rest.length < cursor.rest.length := by
  have hle := cursor.length_skipLayout_le
  unfold scan at h
  split at h
  · simp at h
  · next first rest heq =>
    have hpos := cursor.skipLayout.pieceAt_pos first
    have hlen : cursor.skipLayout.rest.length = rest.length + 1 := by rw [heq]; rfl
    simp only [Prod.mk.injEq, Option.some.injEq] at h
    rw [← h.2, rest_advance, List.length_drop]
    omega

/-! ## All pieces -/

/-- The tokens and faults from a place to the end of the text. -/
def pieces (cursor : Cursor) : List Piece :=
  match _h : cursor.scan with
  | (none, _) => []
  | (some piece, next) => piece :: next.pieces
termination_by cursor.rest.length
decreasing_by exact length_scan_lt _h

end Cursor

def pieces (source : String) : List Piece := (Cursor.atStart source.toList).pieces

/-- The tokens of an annotation, unless there is a fault in it; the first fault is the error. -/
def tokenize (source : String) : Except LexicalError (List Located) := (pieces source).mapM id

end TypeNotation
