import TypeNotation.Text.Blank
import TypeNotation.Token.Basic
import TypeNotation.Token.Escape

/-!
# Longest lexemes

Which token stands at the front of a text, and how many characters it takes. A token is always the
longest that any rule of the notation allows, and a keyword wins over an identifier of the same
length. Each rule gives the *length* of its longest match, zero meaning none, so that the text of
the token and the text behind it are always a `take` and a `drop` of the same number.

A string literal may hold any character, line feeds included, but its backslashes must each be
followed by a character other than a line feed.
-/

namespace TypeNotation

/-! ## Character classes -/

/-- What an identifier may begin with. -/
def isIdentifierStart (c : Char) : Bool := c.isAlpha || c = '_' || c = '$'

/-- What an identifier may go on with. -/
def isIdentifierPart (c : Char) : Bool := c.isAlphanum || c = '_' || c = '$'

/-- What a string literal may begin with, and must then end with. -/
def isQuote (c : Char) : Bool := c = '"' || c = '\''

/-- The length of the longest prefix whose characters all satisfy `p`. -/
def runLength (p : Char → Bool) (text : List Char) : Nat := (text.takeWhile p).length

theorem take_runLength (p : Char → Bool) (text : List Char) :
    text.take (runLength p text) = text.takeWhile p := by
  rw [runLength, ← List.prefix_iff_eq_take.1 (List.takeWhile_prefix p)]

theorem drop_runLength (p : Char → Bool) (text : List Char) :
    text.drop (runLength p text) = text.dropWhile p := by
  induction text with
  | nil => rfl
  | cons c rest ih =>
    rw [runLength] at ih ⊢
    by_cases h : p c <;> simp [h, ih]

/-! ## Numbers -/

/-- The length of a decimal point and the digits behind it. -/
def fractionLength : List Char → Nat
  | '.' :: rest => match runLength Char.isDigit rest with
    | 0 => 0
    | n + 1 => n + 2
  | _ => 0

/-- The length of the sign of an exponent. -/
def signLength : List Char → Nat
  | '+' :: _ | '-' :: _ => 1
  | _ => 0

/-- The length of an exponent: its mark, an optional sign and the digits behind them. -/
def exponentLength : List Char → Nat
  | 'e' :: rest | 'E' :: rest => match runLength Char.isDigit (rest.drop (signLength rest)) with
    | 0 => 0
    | n + 1 => n + 2 + signLength rest
  | _ => 0

/-- The length of a number without a sign. -/
def unsignedLength (text : List Char) : Nat :=
  match runLength Char.isDigit text with
  | 0 => 0
  | n + 1 =>
    let whole := n + 1
    let decimal := whole + fractionLength (text.drop whole)
    decimal + exponentLength (text.drop decimal)

/-- The length of a number, which a minus sign may precede. -/
def numberLength : List Char → Nat
  | '-' :: rest => match unsignedLength rest with
    | 0 => 0
    | n + 1 => n + 2
  | text => unsignedLength text

/-! ## Strings -/

/-- How far a string literal reaches behind its opening quote: the characters that belong to it,
the closing quote included if there is one. -/
structure StringReach where
  closed : Bool
  length : Nat
  deriving DecidableEq, Repr

/-- The same reach with more characters in front. -/
def StringReach.behind (n : Nat) (reach : StringReach) : StringReach :=
  ⟨reach.closed, reach.length + n⟩

/-- How far the literal opened by `quote` reaches. It is closed by the first quote that no backslash
precedes, and broken off at a backslash with a line feed or nothing behind it. -/
def stringReach (quote : Char) : List Char → StringReach
  | [] => ⟨false, 0⟩
  | ['\\'] => ⟨false, 0⟩
  | '\\' :: c :: rest =>
    if c = '\n' then ⟨false, 0⟩ else (stringReach quote rest).behind 2
  | c :: rest =>
    if c = quote then ⟨true, 1⟩ else (stringReach quote rest).behind 1

/-! ## Symbols and words -/

/-- The longest punctuation at the front of the text. -/
def punctuationAt? : List Char → Option (Symbol × Nat)
  | '*' :: _ => some (.any, 1)
  | '?' :: _ => some (.question, 1)
  | '.' :: '.' :: '.' :: _ => some (.ellipsis, 3)
  | '.' :: _ => some (.dot, 1)
  | ',' :: _ => some (.comma, 1)
  | ':' :: _ => some (.colon, 1)
  | '(' :: _ => some (.leftParen, 1)
  | ')' :: _ => some (.rightParen, 1)
  | '[' :: _ => some (.leftBracket, 1)
  | ']' :: _ => some (.rightBracket, 1)
  | '{' :: _ => some (.leftBrace, 1)
  | '}' :: _ => some (.rightBrace, 1)
  | '<' :: _ => some (.less, 1)
  | '>' :: _ => some (.greater, 1)
  | '→' :: _ => some (.arrow, 1)
  | '-' :: '>' :: _ => some (.arrow, 2)
  | _ => none

/-- The token that a word is: a keyword if it spells one, otherwise an identifier. -/
def wordToken (word : List Char) : Token :=
  if word = ['a', 'n', 'y'] then .symbol .any
  else if word = ['u', 'n', 'i', 'o', 'n'] then .symbol .union
  else .identifier (String.ofList word)

/-! ## The longest lexeme -/

/-- The token at the front of the text and the number of its characters, if a token stands there.
What a token begins with decides which rule can apply. -/
def lexemeAt? : List Char → Option (Token × Nat)
  | [] => none
  | c :: rest =>
    if isIdentifierStart c then
      let n := 1 + runLength isIdentifierPart rest
      some (wordToken ((c :: rest).take n), n)
    else if isQuote c then
      let reach := stringReach c rest
      if reach.closed then
        some (.string (String.ofList (unescape (rest.take (reach.length - 1)))), 1 + reach.length)
      else none
    else match numberLength (c :: rest) with
      -- a hyphen with no digit behind it may still begin an arrow
      | 0 => (punctuationAt? (c :: rest)).map fun (symbol, n) ↦ (.symbol symbol, n)
      | n + 1 => some (.number (String.ofList ((c :: rest).take (n + 1))), n + 1)

theorem punctuationAt?_pos {text : List Char} {symbol : Symbol} {n : Nat}
    (h : punctuationAt? text = some (symbol, n)) : 0 < n := by
  unfold punctuationAt? at h
  split at h <;> simp_all <;> omega

theorem lexemeAt?_pos {text : List Char} {token : Token} {n : Nat}
    (h : lexemeAt? text = some (token, n)) : 0 < n := by
  unfold lexemeAt? at h
  split at h
  · simp at h
  · split at h
    · simp only [Option.some.injEq, Prod.mk.injEq] at h
      omega
    · split at h
      · dsimp only at h
        split at h
        · simp only [Option.some.injEq, Prod.mk.injEq] at h
          omega
        · simp at h
      · split at h
        · simp only [Option.map_eq_some_iff, Prod.exists, Prod.mk.injEq] at h
          obtain ⟨_, _, hp, _, rfl⟩ := h
          exact punctuationAt?_pos hp
        · simp only [Option.some.injEq, Prod.mk.injEq] at h
          omega

end TypeNotation
