import TypeNotation.Token.Cursor

/-!
# Outcomes of reading

A production reads from the front of a list of pieces. It either accepts, with a value and what is
left, or refuses, with what it expected and the pieces that were left at that point. What was found
instead is the first of those pieces: a token, a fault, or nothing. A fault is never accepted, so it
needs no rule of its own.

An outcome carries a bound on the number of pieces left after acceptance. That is what makes a
production that reads at least one piece usable inside a recursion on that number.

Along the way an outcome collects a note for each parameter whose form was decided, in the order of
the decisions; the notes taken before a refusal are kept.
-/

namespace TypeNotation

/-! ## Refusals and notes -/

/-- What a production expects at the front of the pieces. -/
inductive Expected
  | type
  | identifier
  | symbol (symbol : Symbol)
  | endOfInput
  deriving DecidableEq, Repr, Inhabited

def Expected.describe : Expected → String
  | type => "type"
  | identifier => "identifier"
  | symbol s => s.name
  | endOfInput => TypeNotation.endOfInput

/-- Why and where reading stopped. -/
structure Refusal where
  expected : Expected
  /-- The pieces left, the first of which was not acceptable. -/
  remaining : List Piece

/-- The error that a refusal stands for, in a text of `finish` bytes. -/
def Refusal.error (refusal : Refusal) (finish : Nat) : SyntaxError :=
  match refusal.remaining with
  | [] => .unexpectedEnd refusal.expected.describe ⟨finish, finish⟩
  | .ok located :: _ =>
    .unexpectedToken refusal.expected.describe located.token.describe located.span
  | .error fault :: _ => .lexical fault

/-- The decision on the form of one parameter. -/
structure ParamNote where
  /-- The place of the first token of the parameter. -/
  span : Span
  /-- Whether a name and a colon stand there. -/
  named : Bool
  deriving DecidableEq, Repr, Inhabited

/-! ## Outcomes -/

/-- The outcome of a production that leaves fewer than `bound` pieces. -/
inductive Outcome (α : Type) (bound : Nat)
  | accepted (value : α) (rest : List Piece) (shorter : rest.length < bound)
      (notes : List ParamNote)
  | refused (refusal : Refusal) (notes : List ParamNote)

namespace Outcome

variable {α β : Type} {bound : Nat}

def notes : Outcome α bound → List ParamNote
  | accepted _ _ _ notes | refused _ notes => notes

/-- The value and what is left, or the refusal. -/
def result : Outcome α bound → Except Refusal (α × List Piece)
  | accepted value rest _ _ => .ok (value, rest)
  | refused refusal _ => .error refusal

def within {n : Nat} (outcome : Outcome α n) (h : n ≤ bound) : Outcome α bound :=
  match outcome with
  | accepted value rest shorter notes => accepted value rest (Nat.lt_of_lt_of_le shorter h) notes
  | refused refusal notes => refused refusal notes

def map (f : α → β) : Outcome α bound → Outcome β bound
  | accepted value rest shorter notes => accepted (f value) rest shorter notes
  | refused refusal notes => refused refusal notes

/-- The same outcome after a decision. -/
def noting (note : ParamNote) : Outcome α bound → Outcome α bound
  | accepted value rest shorter notes => accepted value rest shorter (note :: notes)
  | refused refusal notes => refused refusal (note :: notes)

/-- Reads on with what is left. -/
def andThen (outcome : Outcome α bound)
    (next : α → (rest : List Piece) → rest.length < bound → Outcome β bound) : Outcome β bound :=
  match outcome with
  | accepted value rest shorter notes =>
    match next value rest shorter with
    | accepted value' rest' shorter' notes' => accepted value' rest' shorter' (notes ++ notes')
    | refused refusal notes' => refused refusal (notes ++ notes')
  | refused refusal notes => refused refusal notes

/-! What the operations do to the two views. -/

@[simp] theorem result_within {n : Nat} (outcome : Outcome α n) (h : n ≤ bound) :
    (outcome.within h).result = outcome.result := by
  cases outcome <;> rfl

@[simp] theorem notes_within {n : Nat} (outcome : Outcome α n) (h : n ≤ bound) :
    (outcome.within h).notes = outcome.notes := by
  cases outcome <;> rfl

@[simp] theorem result_map (f : α → β) (outcome : Outcome α bound) :
    (outcome.map f).result = outcome.result.map fun (value, rest) ↦ (f value, rest) := by
  cases outcome <;> rfl

@[simp] theorem notes_map (f : α → β) (outcome : Outcome α bound) :
    (outcome.map f).notes = outcome.notes := by
  cases outcome <;> rfl

@[simp] theorem result_noting (note : ParamNote) (outcome : Outcome α bound) :
    (outcome.noting note).result = outcome.result := by
  cases outcome <;> rfl

@[simp] theorem notes_noting (note : ParamNote) (outcome : Outcome α bound) :
    (outcome.noting note).notes = note :: outcome.notes := by
  cases outcome <;> rfl

theorem length_lt_of_result {outcome : Outcome α bound} {value : α} {rest : List Piece}
    (h : outcome.result = .ok (value, rest)) : rest.length < bound := by
  cases outcome with
  | accepted value' rest' shorter notes =>
    simp only [result, Except.ok.injEq, Prod.mk.injEq] at h
    exact h.2 ▸ shorter
  | refused refusal notes => simp [result] at h

theorem result_andThen_of_ok {outcome : Outcome α bound}
    {next : α → (rest : List Piece) → rest.length < bound → Outcome β bound}
    {value : α} {rest : List Piece} (h : outcome.result = .ok (value, rest)) :
    (outcome.andThen next).result = (next value rest (length_lt_of_result h)).result := by
  cases outcome with
  | accepted value' rest' shorter notes =>
    obtain ⟨rfl, rfl⟩ : value' = value ∧ rest' = rest := by simpa [result] using h
    simp only [andThen]
    split <;> simp_all [result]
  | refused refusal notes => simp [result] at h

theorem result_andThen_of_error {outcome : Outcome α bound}
    {next : α → (rest : List Piece) → rest.length < bound → Outcome β bound}
    {refusal : Refusal} (h : outcome.result = .error refusal) :
    (outcome.andThen next).result = .error refusal := by
  cases outcome with
  | accepted value rest shorter notes => simp [result] at h
  | refused refusal' notes => simpa [andThen, result] using h

end Outcome

/-! ## Single pieces -/

/-- Whether the first piece is the given symbol. -/
def headIs (symbol : Symbol) : List Piece → Bool
  | .ok ⟨.symbol s, _⟩ :: _ => s = symbol
  | _ => false

theorem headIs_iff {symbol : Symbol} {input : List Piece} :
    headIs symbol input = true ↔
      ∃ span rest, input = .ok ⟨.symbol symbol, span⟩ :: rest := by
  unfold headIs
  split
  · simp [eq_comm]
  · next hother =>
    simp only [Bool.false_eq_true, false_iff, not_exists]
    exact fun span rest h ↦ hother _ _ _ h

/-- What is behind an optional comma. -/
def dropComma (input : List Piece) : List Piece :=
  if headIs .comma input then input.tail else input

theorem length_tail_lt {symbol : Symbol} {input : List Piece} (h : headIs symbol input = true) :
    input.tail.length < input.length := by
  obtain ⟨span, rest, rfl⟩ := headIs_iff.1 h
  exact Nat.lt_succ_self _

theorem length_dropComma_le (input : List Piece) : (dropComma input).length ≤ input.length := by
  unfold dropComma
  split
  · exact Nat.le_of_lt (length_tail_lt ‹_›)
  · exact Nat.le_refl _

def expect (symbol : Symbol) (input : List Piece) : Outcome Unit input.length :=
  if h : headIs symbol input = true then .accepted () input.tail (length_tail_lt h) []
  else .refused ⟨.symbol symbol, input⟩ []

end TypeNotation
