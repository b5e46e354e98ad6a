import TypeNotation.Text.Hex

/-!
# Escapes in string literals

What the body of a string literal stands for. Decoding never fails: an escape that does not name a
character stands for its own characters without the backslash, so every body has a value.

An escape is described by `escapeAt`, which looks only at what follows the backslash and says what
is written for it and how many characters it takes. A numeric escape takes its characters whether or
not they turn out to be digits, and an unclosed `\u{` takes all that is left.
-/

namespace TypeNotation

/-! ## One escape -/

/-- The character that the two characters of `\x` name. A plus sign may stand in place of the first
digit. -/
def byteChar? : List Char → Option Char
  | [high, low] =>
    if high = '+' then Hex.char? [low] else Hex.char? [high, low]
  | _ => none

/-- What an escape stands for, and how many characters it takes, given what follows its
backslash. -/
def escapeAt : List Char → List Char × Nat
  | [] => (['\\'], 0)
  | 'n' :: _ => (['\n'], 1)
  | 'r' :: _ => (['\r'], 1)
  | 't' :: _ => (['\t'], 1)
  | '0' :: _ => (['\x00'], 1)
  | 'x' :: rest =>
    let digits := rest.take 2
    match byteChar? digits with
    | some c => ([c], 1 + digits.length)
    | none => ('x' :: digits, 1 + digits.length)
  | 'u' :: '{' :: rest =>
    let digits := rest.takeWhile (· ≠ '}')
    if digits.length < rest.length then
      match Hex.char? digits with
      | some c => ([c], 3 + digits.length)
      | none => ('u' :: '{' :: digits ++ ['}'], 3 + digits.length)
    else ('u' :: '{' :: digits, 2 + digits.length)
  | 'u' :: rest =>
    let digits := rest.take 4
    match if digits.length = 4 then Hex.char? digits else none with
    | some c => ([c], 1 + digits.length)
    | none => ('u' :: digits, 1 + digits.length)
  | c :: _ => ([c], 1)

/-! ## Whole bodies -/

/-- The text that the body of a string literal stands for. -/
def unescape : List Char → List Char
  | [] => []
  | c :: rest =>
    if c = '\\' then (escapeAt rest).1 ++ unescape (rest.drop (escapeAt rest).2)
    else c :: unescape rest
termination_by body => body.length
decreasing_by all_goals simp only [List.length_cons, List.length_drop]; omega

end TypeNotation
