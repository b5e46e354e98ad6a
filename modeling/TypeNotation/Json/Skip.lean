import TypeNotation.Json.Shape

/-!
# Skipping values

The value of a member that nobody asked for is passed over without being built. It still has to be
JSON, but it may be nested as deep as it likes, and a string in it need not be well-formed beyond
its escapes. The enclosing brackets are kept on a stack of their own, so that what may come next
depends on the innermost one only.
-/

namespace TypeNotation

/-! ## Scalars -/

/-- Passes over a string behind its opening quote. -/
def skipStringBody (input : List Char) : Except JsonError (Taken Unit input.length) :=
  match input with
  | [] => .error (.before .endInString [])
  | '"' :: rest => .ok ⟨(), rest, length_lt_behind rest⟩
  | '\\' :: 'u' :: rest => do
    let digits ← readHexDigits rest
    have hlt := Nat.lt_succ_of_lt (Nat.lt_succ_of_lt digits.shorter)
    let tail ← skipStringBody digits.rest
    .ok ⟨(), tail.rest, Nat.lt_trans tail.shorter hlt⟩
  | '\\' :: c :: rest =>
    if c ∈ ['"', '\\', '/', 'b', 'f', 'n', 'r', 't'] then do
      let tail ← skipStringBody rest
      .ok ⟨(), tail.rest, Nat.lt_succ_of_lt (Nat.lt_succ_of_lt tail.shorter)⟩
    else .error (.inside .invalidEscape (c :: rest))
  | c :: rest =>
    if c = '\\' then .error (.before .endInString [])
    else if c < ' ' then .error (.before .controlCharacter (c :: rest))
    else do
      let tail ← skipStringBody rest
      .ok ⟨(), tail.rest, Nat.lt_succ_of_lt tail.shorter⟩
termination_by input.length

/-- Passes over a run of digits, at least one. -/
def skipDigits : JsonReader Unit
  | [] => .error (.before .invalidNumber [])
  | c :: rest =>
    if c.isDigit then
      .ok ⟨(), rest.dropWhile Char.isDigit,
        length_dropDigits_lt rest⟩
    else .error (.inside .invalidNumber (c :: rest))

def skipExponent : JsonReader Unit
  | '+' :: rest => (skipDigits rest).map (·.within (length_le_behind rest))
  | '-' :: rest => (skipDigits rest).map (·.within (length_le_behind rest))
  | rest => skipDigits rest

/-- Passes over a number behind its sign, if it has one. -/
def skipNumber : JsonReader Unit := fun input ↦ do
  let whole ← skipDigits input
  if input.head? = some '0' ∧ whole.rest.length + 1 < input.length then
    .error (.inside .invalidNumber (input.drop 1))
  else
    let fraction ← readMarked (· = '.') skipDigits whole.rest
    let exponent ← readMarked (fun c ↦ c = 'e' || c = 'E') skipExponent fraction.rest
    .ok ⟨(), exponent.rest, by
      have h₁ := whole.shorter
      have h₂ := fraction.shorter
      have h₃ := exponent.shorter
      omega⟩

/-- Passes over a value that is neither an array nor an object. -/
def skipScalar : JsonReader Unit
  | 'n' :: rest => (readLetters ['u', 'l', 'l'] rest).map fun left ↦
      ⟨(), left.1, length_lt_of_letters left⟩
  | 't' :: rest => (readLetters ['r', 'u', 'e'] rest).map fun left ↦
      ⟨(), left.1, length_lt_of_letters left⟩
  | 'f' :: rest => (readLetters ['a', 'l', 's', 'e'] rest).map fun left ↦
      ⟨(), left.1, length_lt_of_letters left⟩
  | '"' :: rest => (skipStringBody rest).map (·.within (length_le_behind rest))
  | '-' :: rest => (skipNumber rest).map (·.within (length_le_behind rest))
  | [] => .error (.before .endInValue [])
  | c :: rest =>
    if c.isDigit then skipNumber (c :: rest) else .error (.inside .expectedValue (c :: rest))

/-! ## Arrays and objects -/

/-- What a skipped value stands in. -/
inductive Enclosure
  | array
  | object
  deriving DecidableEq, Repr

namespace Enclosure

/-- The character that closes it. -/
def closing : Enclosure → Char
  | array => ']'
  | object => '}'

/-- The fault if the text ends inside it. -/
def endFault : Enclosure → JsonFault
  | array => .endInList
  | object => .endInObject

/-- The fault if neither a comma nor the closing character follows a value in it. -/
def commaFault : Enclosure → JsonFault
  | array => .expectedCommaOrBracket
  | object => .expectedCommaOrBrace

end Enclosure

/-- What is due in the course of skipping. -/
inductive SkipState (bound : Nat)
  /-- Nothing: all enclosures are closed. -/
  | done (rest : List Char) (shorter : rest.length < bound)
  /-- A value, inside the given enclosures. -/
  | value (stack : List Enclosure) (rest : List Char) (shorter : rest.length < bound)

def SkipState.within {n bound : Nat} (state : SkipState n) (h : n ≤ bound) : SkipState bound :=
  match state with
  | done rest shorter => done rest (Nat.lt_of_lt_of_le shorter h)
  | value stack rest shorter => value stack rest (Nat.lt_of_lt_of_le shorter h)

/-- Passes over what stands in front of a value in the innermost enclosure: in an object, a key and
a colon. -/
def skipToValue (innermost : Enclosure) (outer : List Enclosure) (input : List Char) :
    Except JsonError (SkipState (input.length + 1)) :=
  match innermost with
  | .array => .ok (.value (.array :: outer) input (length_lt_behind input))
  | .object => match skipSpace input, length_skipSpace_le input with
    | [], _ => .error (.before .endInObject [])
    | '"' :: rest, h => do
      let name ← skipStringBody rest
      let colon ← readColon name.rest
      .ok (.value (.object :: outer) colon.rest
        (Nat.lt_succ_of_lt (Nat.lt_trans colon.shorter (Nat.lt_trans name.shorter h))))
    | rest, _ => .error (.inside .keyNotString rest)

/-- Passes over what follows a value: any number of closing brackets, and then, unless all are
closed, a comma and what stands in front of the next value. -/
def skipBehind : (stack : List Enclosure) → (input : List Char) →
    Except JsonError (SkipState (input.length + 1))
  | [], input => .ok (.done input (length_lt_behind input))
  | innermost :: outer, input => match skipSpace input, length_skipSpace_le input with
    | [], _ => .error (.before innermost.endFault [])
    | c :: rest, h =>
      if c = innermost.closing then
        (skipBehind outer rest).map (·.within (Nat.le_succ_of_le h))
      else if c = ',' then
        (skipToValue innermost outer rest).map (·.within (Nat.le_succ_of_le h))
      else .error (.inside innermost.commaFault (c :: rest))

/-- Passes over what follows an opening bracket. -/
def skipOpened (innermost : Enclosure) (outer : List Enclosure) (input : List Char) :
    Except JsonError (SkipState (input.length + 1)) :=
  match skipSpace input, length_skipSpace_le input with
  | [], _ => .error (.before innermost.endFault [])
  | c :: rest, h =>
    if c = innermost.closing then
      (skipBehind outer rest).map (·.within (Nat.le_succ_of_le h))
    else (skipToValue innermost outer (c :: rest)).map (·.within (Nat.succ_le_succ h))

/-- Passes over the beginning of a value and on to the next one, if there is one. -/
def skipStep (stack : List Enclosure) (input : List Char) :
    Except JsonError (SkipState input.length) :=
  match skipSpace input, length_skipSpace_le input with
  | '[' :: rest, h => (skipOpened .array stack rest).map (·.within h)
  | '{' :: rest, h => (skipOpened .object stack rest).map (·.within h)
  | rest, h => do
    let scalar ← skipScalar rest
    (skipBehind stack scalar.rest).map
      (·.within (Nat.le_trans (Nat.succ_le_of_lt scalar.shorter) h))

/-- Passes over a value and on to the end of the outermost enclosure. -/
def skipInside (stack : List Enclosure) (input : List Char) :
    Except JsonError (Taken Unit input.length) := do
  match ← skipStep stack input with
  | .done rest shorter => .ok ⟨(), rest, shorter⟩
  | .value stack' rest shorter =>
    (skipInside stack' rest).map (·.within (Nat.le_of_lt shorter))
termination_by input.length

def skipValue : JsonReader Unit := skipInside []

end TypeNotation
