import TypeNotation.Text.Blank

/-!
# Text without control sequences

A text as it may go to a log that is no terminal. Control characters are left out, blanks excepted,
and so are control sequences: what begins with an escape character and goes on to the character
that ends such a sequence. A sequence that does not end takes the rest of the text with it, but in
the plain kinds a blank that is a control character breaks it off and is shown.

Strings inside a sequence end where the byte `9C` stands. It occurs in the bytes of some characters
outside ASCII, and of such a character nothing is shown.
-/

namespace TypeNotation

/-- Where among control sequences a place in a text is. -/
inductive ControlState
  /-- Outside any sequence. -/
  | ground
  /-- Behind an escape character. -/
  | escape
  /-- In a sequence that any letter, digit or later mark ends. -/
  | escapeMarks
  /-- In a sequence that begins with `[`. -/
  | parameters
  /-- At the head of a device string. -/
  | device
  /-- In the parameters of a device string. -/
  | deviceParameters
  /-- In the marks between the parameters of a device string and the string. -/
  | deviceMarks
  /-- In a system command, which begins with `]` and ends with a bell. -/
  | command
  /-- In a string that only its terminator ends. -/
  | string
  deriving DecidableEq, Repr, Inhabited

/-- Whether a character may be shown: it is no control character, or a blank. -/
def isPlain (c : Char) : Bool :=
  isLayout c || (0x20 ≤ c.toNat && c.toNat ≠ 0x7F)

/-- Whether the byte that ends a string is among the bytes of the character. -/
def endsString (c : Char) : Bool := (String.utf8EncodeChar c).contains 0x9C

namespace ControlState

/-- Whether a character at such a place is shown. -/
def shows (state : ControlState) (c : Char) : Bool :=
  match state with
  | ground => isPlain c
  | escape | escapeMarks | parameters => isLayout c && c ≠ ' '
  | device | deviceParameters | deviceMarks | command | string => false

/-- The place behind a character of a sequence that does not break it off. -/
def within (state : ControlState) (c : Char) : ControlState :=
  let n := c.toNat
  match state with
  | ground => ground
  | escape =>
    if c = '[' then parameters
    else if c = ']' then command
    else if c = 'P' then device
    else if c = 'X' ∨ c = '^' ∨ c = '_' then string
    else if 0x20 ≤ n ∧ n ≤ 0x2F then escapeMarks
    else if 0x30 ≤ n ∧ n ≤ 0x7E then ground
    else escape
  | escapeMarks => if 0x30 ≤ n ∧ n ≤ 0x7E then ground else escapeMarks
  | parameters => if 0x40 ≤ n ∧ n ≤ 0x7E then ground else parameters
  | device =>
    if 0x20 ≤ n ∧ n ≤ 0x2F then deviceMarks
    else if 0x30 ≤ n ∧ n ≤ 0x3F then deviceParameters
    else if 0x40 ≤ n ∧ n ≤ 0x7E then string
    else device
  | deviceParameters =>
    if 0x20 ≤ n ∧ n ≤ 0x2F then deviceMarks
    else if 0x3C ≤ n ∧ n ≤ 0x7E then string
    else deviceParameters
  | deviceMarks => if 0x30 ≤ n ∧ n ≤ 0x7E then string else deviceMarks
  | command => if c = '\x07' then ground else command
  | string => if endsString c then ground else string

/-- The place behind a character that is not shown. Cancel and substitute end any sequence, and
escape begins a new one. -/
def next (state : ControlState) (c : Char) : ControlState :=
  if c = '\x18' ∨ c = '\x1a' then ground
  else if c = '\x1b' then escape
  else state.within c

/-- The characters that are shown of a text that begins at such a place. -/
def visible (state : ControlState) : List Char → List Char
  | [] => []
  | c :: rest => if state.shows c then c :: ground.visible rest else (state.next c).visible rest

/-- Outside sequences plain text is shown as it is. -/
theorem visible_append_of_isPlain {text : List Char} (rest : List Char)
    (h : ∀ c ∈ text, isPlain c = true) :
    ground.visible (text ++ rest) = text ++ ground.visible rest := by
  induction text with
  | nil => rfl
  | cons c text ih =>
    rw [List.cons_append, visible, shows, if_pos (h c List.mem_cons_self),
      ih fun d hd ↦ h d (List.mem_cons_of_mem _ hd), List.cons_append]

end ControlState

/-- A text without its control sequences and control characters, blanks excepted. -/
def visible (text : String) : String := String.ofList (ControlState.ground.visible text.toList)

end TypeNotation
