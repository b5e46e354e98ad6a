/-!
# White space

Two notions of white space meet in this library. Between the tokens of an annotation only the five
ASCII characters of `isLayout` may stand. A line of a file counts as blank when it holds nothing
but characters with the Unicode property `White_Space`, which `isBlank` decides; the property also
covers the non-ASCII spaces and the line and paragraph separators.
-/

namespace TypeNotation

/-- Space, tab, carriage return, line feed and form feed: what may stand between two tokens. -/
def isLayout (c : Char) : Bool :=
  c = ' ' || c = '\t' || c = '\r' || c = '\n' || c = '\x0c'

/-- The Unicode property `White_Space`. -/
def isBlank (c : Char) : Bool :=
  let n := c.toNat
  (0x09 ≤ n && n ≤ 0x0D) || n = 0x20 || n = 0x85 || n = 0xA0 || n = 0x1680 ||
    (0x2000 ≤ n && n ≤ 0x200A) || n = 0x2028 || n = 0x2029 || n = 0x202F || n = 0x205F ||
    n = 0x3000

theorem isBlank_of_isLayout {c : Char} (h : isLayout c = true) : isBlank c = true := by
  simp only [isLayout, Bool.or_eq_true, decide_eq_true_eq] at h
  rcases h with (((rfl | rfl) | rfl) | rfl) | rfl <;> decide

end TypeNotation
