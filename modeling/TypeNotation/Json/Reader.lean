import TypeNotation.Json.Error
import TypeNotation.Json.Value
import TypeNotation.Text.Hex

/-!
# Reading JSON text

A reader takes something from the front of a text and leaves strictly less of it, which is what lets
readers be repeated. Everything here is lexical or common to all shapes: white space, words,
strings, and the punctuation of arrays and objects. What the items and members have to be is the
affair of the readers that are passed in.

A character that is looked at and found wrong counts as read for the place of the error.
-/

namespace TypeNotation

/-! ## Readers -/

/-- A value and what is left behind it, which is shorter than `bound`. -/
structure Taken (α : Type) (bound : Nat) where
  value : α
  rest : List Char
  shorter : rest.length < bound

namespace Taken

variable {α β : Type} {bound : Nat}

/-- The same under a weaker bound. -/
def within {n : Nat} (taken : Taken α n) (h : n ≤ bound) : Taken α bound :=
  ⟨taken.value, taken.rest, Nat.lt_of_lt_of_le taken.shorter h⟩

def map (f : α → β) (taken : Taken α bound) : Taken β bound :=
  ⟨f taken.value, taken.rest, taken.shorter⟩

end Taken

abbrev JsonReader (α : Type) :=
  (input : List Char) → Except JsonError (Taken α input.length)

namespace JsonReader

/-- What a reader takes from a text and what it leaves. The bound is forgotten, so the result says
nothing about the text that it came from. -/
def take {α : Type} (reader : JsonReader α) (input : List Char) :
    Except JsonError (α × List Char) :=
  (reader input).map fun taken ↦ (taken.value, taken.rest)

theorem take_eq_ok_iff {α : Type} {reader : JsonReader α} {input rest : List Char} {value : α} :
    take reader input = .ok (value, rest) ↔
      ∃ shorter, reader input = .ok ⟨value, rest, shorter⟩ := by
  unfold take
  constructor
  · intro h
    cases htaken : reader input with
    | error error =>
      rw [htaken] at h
      cases h
    | ok taken =>
      rw [htaken] at h
      cases taken
      cases h
      exact ⟨_, rfl⟩
  · rintro ⟨_, h⟩
    rw [h]
    rfl

end JsonReader

/-! What is left behind the first character is shorter than the text. -/

theorem length_le_behind (rest : List Char) : rest.length ≤ rest.length + 1 := Nat.le_succ _

theorem length_lt_behind (rest : List Char) : rest.length < rest.length + 1 := Nat.lt_succ_self _

/-! ## White space and words -/

def isJsonSpace (c : Char) : Bool := c = ' ' || c = '\t' || c = '\n' || c = '\r'

def skipSpace (input : List Char) : List Char := input.dropWhile isJsonSpace

theorem length_skipSpace_le (input : List Char) : (skipSpace input).length ≤ input.length := by
  unfold skipSpace
  induction input with
  | nil => exact Nat.le_refl _
  | cons c rest ih =>
    rw [List.dropWhile_cons]
    split
    · exact Nat.le_succ_of_le ih
    · exact Nat.le_refl _

def afterSpace {α : Type} (reader : JsonReader α) : JsonReader α := fun input ↦
  (reader (skipSpace input)).map (·.within (length_skipSpace_le input))

/-- What is left behind the letters of a word. -/
def readLetters : (letters input : List Char) →
    Except JsonError { rest : List Char // rest.length ≤ input.length }
  | [], input => .ok ⟨input, Nat.le_refl _⟩
  | _ :: _, [] => .error (.before .endInValue [])
  | letter :: letters, c :: rest =>
    if c = letter then
      (readLetters letters rest).map fun left ↦ ⟨left.1, Nat.le_succ_of_le left.2⟩
    else .error (.inside .expectedWord (c :: rest))

/-- What is left behind a word is shorter than the text that the first letter stood in. -/
theorem length_lt_of_letters {input : List Char}
    (left : { rest : List Char // rest.length ≤ input.length }) :
    left.1.length < input.length + 1 :=
  Nat.lt_succ_of_le left.2

/-! ## Strings -/

/-- Reads the four digits of a numeric escape. Four bytes are taken for them, whatever they are. -/
def readHexDigits : JsonReader Nat := fun input ↦
  if utf8Length input < 4 then .error (.before .endInString [])
  else match input with
    | a :: b :: c :: d :: rest =>
      match Hex.value? [a, b, c, d] with
      | some n => .ok ⟨n, rest, by simp only [List.length_cons]; omega⟩
      | none => .error ⟨.invalidEscape, utf8Length input - 4⟩
    | _ => .error ⟨.invalidEscape, utf8Length input - 4⟩

/-- Reads the second half of a surrogate pair, which is an escape of its own, given the first. -/
def readSecondHalf (first : Nat) : JsonReader Char
  | [] => .error (.before .endInString [])
  | '\\' :: [] => .error (.before .endInString [])
  | '\\' :: 'u' :: rest => do
    let second ← readHexDigits rest
    if second.value < 0xDC00 ∨ 0xDFFF < second.value then
      .error (.before .loneSurrogate second.rest)
    else
      let code := 0x10000 + (first - 0xD800) * 0x400 + (second.value - 0xDC00)
      .ok ((second.map fun _ ↦ Char.ofNat code).within
        (Nat.le_succ_of_le (Nat.le_succ _)))
  | '\\' :: rest => .error (.inside .halfPair rest)
  | rest => .error (.inside .halfPair rest)

/-- Reads what stands behind `\u`. A character outside the basic plane is written as two escapes,
the halves of a surrogate pair. -/
def readUnicodeEscape : JsonReader Char := fun input ↦ do
  let first ← readHexDigits input
  if 0xDC00 ≤ first.value ∧ first.value ≤ 0xDFFF then
    .error (.before .loneSurrogate first.rest)
  else if first.value < 0xD800 ∨ 0xDBFF < first.value then
    .ok (first.map Char.ofNat)
  else
    (readSecondHalf first.value first.rest).map (·.within (Nat.le_of_lt first.shorter))

/-- Reads what stands behind a backslash. -/
def readEscape : JsonReader Char
  | [] => .error (.before .endInString [])
  | 'u' :: rest => (readUnicodeEscape rest).map (·.within (length_le_behind rest))
  | c :: rest =>
    let simple : Option Char :=
      if c = '"' ∨ c = '\\' ∨ c = '/' then some c
      else if c = 'b' then some '\x08'
      else if c = 'f' then some '\x0c'
      else if c = 'n' then some '\n'
      else if c = 'r' then some '\r'
      else if c = 't' then some '\t'
      else none
    match simple with
    | some meaning => .ok ⟨meaning, rest, length_lt_behind rest⟩
    | none => .error (.inside .invalidEscape (c :: rest))

/-- Reads a string behind its opening quote. -/
def readStringBody (input : List Char) : Except JsonError (Taken (List Char) input.length) :=
  match input with
  | [] => .error (.before .endInString [])
  | '"' :: rest => .ok ⟨[], rest, length_lt_behind rest⟩
  | '\\' :: rest => do
    let escaped ← readEscape rest
    have hlt := Nat.lt_succ_of_lt escaped.shorter
    let tail ← readStringBody escaped.rest
    .ok ⟨escaped.value :: tail.value, tail.rest, Nat.lt_trans tail.shorter hlt⟩
  | c :: rest =>
    if c < ' ' then .error (.inside .controlCharacter (c :: rest))
    else do
      let tail ← readStringBody rest
      .ok ⟨c :: tail.value, tail.rest, Nat.lt_succ_of_lt tail.shorter⟩
termination_by input.length

/-! ## Arrays -/

/-- Where the next item of an array begins, or nothing if its closing bracket comes next. -/
def nextItem (first : Bool) (input : List Char) :
    Except JsonError (Option { item : List Char // item.length ≤ input.length }) :=
  match skipSpace input, length_skipSpace_le input with
  | [], _ => .error (.before .endInList [])
  | ']' :: _, _ => .ok none
  | c :: rest, h =>
    if first then .ok (some ⟨c :: rest, h⟩)
    else if c = ',' then
      match skipSpace rest, length_skipSpace_le rest with
      | [], _ => .error (.before .endInValue [])
      | ']' :: rest', _ => .error (.inside .trailingComma (']' :: rest'))
      | item, h' => .ok (some ⟨item, Nat.le_trans h' (Nat.le_of_lt h)⟩)
    else .error (.inside .expectedCommaOrBracket (c :: rest))

theorem length_le_of_item {input : List Char}
    (start : { item : List Char // item.length ≤ input.length }) :
    start.1.length ≤ input.length + 1 :=
  Nat.le_succ_of_le start.2

/-- Reads the closing bracket of an array. -/
def readArrayEnd : JsonReader Unit := afterSpace fun input ↦
  match input with
  | [] => .error (.before .endInList [])
  | ']' :: rest => .ok ⟨(), rest, length_lt_behind rest⟩
  | ',' :: rest => match skipSpace rest with
    | ']' :: rest' => .error (.inside .trailingComma (']' :: rest'))
    | rest' => .error (.inside .trailingCharacters rest')
  | rest => .error (.inside .trailingCharacters rest)

/-- Reads the items of an array and its closing bracket. -/
def readArrayItems {α : Type} (item : JsonReader α) (first : Bool) (input : List Char) :
    Except JsonError (Taken (List α) input.length) := do
  match ← nextItem first input with
  | none => (readArrayEnd input).map (·.map fun _ ↦ [])
  | some start =>
    let head ← item start.1
    have hlt := Nat.lt_of_lt_of_le head.shorter start.2
    let tail ← readArrayItems item false head.rest
    .ok ⟨head.value :: tail.value, tail.rest, Nat.lt_trans tail.shorter hlt⟩
termination_by input.length

/-! ## Objects -/

def readColon : JsonReader Unit := afterSpace fun input ↦
  match input with
  | [] => .error (.before .endInObject [])
  | ':' :: rest => .ok ⟨(), rest, length_lt_behind rest⟩
  | rest => .error (.inside .expectedColon rest)

/-- What comes next in an object. -/
inductive NextMember (bound : Nat)
  /-- The closing brace, and what is left behind it. -/
  | close (rest : List Char) (shorter : rest.length < bound)
  /-- A key, of which the opening quote has been read. -/
  | key (rest : List Char) (shorter : rest.length < bound)

/-- What comes next in an object: the next key, or the closing brace. -/
def nextMember (first : Bool) (input : List Char) : Except JsonError (NextMember input.length) :=
  match skipSpace input, length_skipSpace_le input with
  | [], _ => .error (.before .endInObject [])
  | '}' :: rest, h => .ok (.close rest h)
  | c :: rest, h =>
    if first then
      if c = '"' then .ok (.key rest h) else .error (.inside .keyNotString (c :: rest))
    else if c = ',' then
      match skipSpace rest, length_skipSpace_le rest with
      | [], _ => .error (.before .endInValue [])
      | '"' :: key, h' => .ok (.key key (Nat.lt_trans h' h))
      | '}' :: rest', _ => .error (.inside .trailingComma ('}' :: rest'))
      | rest', _ => .error (.inside .keyNotString rest')
    else .error (.inside .expectedCommaOrBrace (c :: rest))

/-- Reads the members of an object and its closing brace. What has been read so far is kept in a
state; `member` is given the state and a key and reads on from behind the key. -/
def readMembers {σ : Type} (member : σ → String → JsonReader σ) (state : σ) (first : Bool)
    (input : List Char) : Except JsonError (Taken σ input.length) := do
  match ← nextMember first input with
  | .close rest shorter => .ok ⟨state, rest, shorter⟩
  | .key rest shorter =>
    let name ← readStringBody rest
    let next ← member state (String.ofList name.value) name.rest
    have hlt := Nat.lt_trans next.shorter (Nat.lt_trans name.shorter shorter)
    let last ← readMembers member next.value false next.rest
    .ok ⟨last.value, last.rest, Nat.lt_trans last.shorter hlt⟩
termination_by input.length

/-! ## Whole texts -/

/-- Reads a text that holds nothing else. -/
def readWhole {α : Type} (reader : JsonReader α) (text : String) : Except JsonError α := do
  let (value, left) ← JsonReader.take reader text.toList
  match skipSpace left with
  | [] => .ok value
  | rest => .error (.inside .trailingCharacters rest)

end TypeNotation
