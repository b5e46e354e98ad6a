import TypeNotation.Proofs.Grammar.Productions
import TypeNotation.Proofs.Lexical.Stream

/-!
# Reading on demand

The productions read from the list of all pieces. Here they are written once more as a descent that
takes its tokens from a scanner, one at a time and only when they are needed, and that stops at the
first fault it meets. Nothing bounds the descent: it is a recursion that may have no result, and its
lists are loops that go on until they see their closing symbol or the end.
-/

namespace TypeNotation

/-! ## The descent -/

/-- What takes tokens from a scanner: its answer and the scanner after it, unless it never comes to
an answer. -/
abbrev Descent (α : Type) := ExceptT SyntaxError (StateT Scanner Option) α

namespace Descent

variable {α β : Type}

/-- The token that the scanner holds. -/
def token : Descent (Option Token) := fun scanner ↦ some (.ok scanner.token, scanner)

def advance : Descent Unit := fun scanner ↦
  some (match scanner.scan.1 with
    | .ok _ => .ok ()
    | .error fault => .error (.lexical fault), scanner.next)

/-- Fails at the token that the scanner holds. -/
def refuse (expected : Expected) : Descent α := fun scanner ↦
  some (.error (match scanner.token with
    | none => .unexpectedEnd expected.describe scanner.span
    | some token => .unexpectedToken expected.describe token.describe scanner.span), scanner)

/-- Asks a question that may move the scanner, and puts the scanner back. -/
def lookAhead (question : Scanner → Bool × Scanner) : Descent Bool := fun scanner ↦
  some (.ok (question scanner).1, scanner)

/-- Moves on if the scanner holds the symbol. -/
def matchSymbol (symbol : Symbol) : Descent Bool := do
  if (← token) = some (.symbol symbol) then
    advance
    return true
  else return false

/-- Moves on behind the symbol. -/
def expect (symbol : Symbol) : Descent Unit := do
  if (← token) = some (.symbol symbol) then advance else refuse (.symbol symbol)

def identifier : Descent String := do
  match ← token with
  | some (.identifier name) =>
    advance
    return name
  | _ => refuse .identifier

/-- Whether the scanner holds an identifier and a colon is next. -/
def isNamed : Descent Bool := lookAhead fun scanner ↦
  match scanner.token with
  | some (.identifier _) =>
    (match scanner.scan.1 with
      | .ok (some (.symbol .colon)) => true
      | _ => false, scanner.next)
  | _ => (false, scanner)

/-- What the lists of the notation are made of. -/
inductive ListKind
  | types
  | members
  | params

abbrev ListKind.Item : ListKind → Type
  | types => TypeExpr
  | members => Member
  | params => Param

def ListKind.close : ListKind → Symbol
  | types => .greater
  | members => .rightBrace
  | params => .rightParen

/-- What is read by a recursion, and what each has for its result. -/
inductive Rule : Type → Type
  /-- The parts of a dotted name behind those given. -/
  | segments (name : String) : Rule String
  | type : Rule TypeExpr
  /-- A name, a colon and a type. -/
  | typed : Rule (String × TypeExpr)
  /-- An item of a list. -/
  | item (kind : ListKind) : Rule kind.Item
  /-- An item, and a comma that may be behind it. -/
  | round (kind : ListKind) : Rule kind.Item
  /-- Rounds, as long as neither the closing symbol nor the end is met, and then the closing
  symbol. -/
  | items (kind : ListKind) : Rule (List kind.Item)

/-- Reads what the rule tells. -/
def Rule.read {α : Type} (rule : Rule α) : Descent α :=
  match rule with
  | .segments name => do
    if ← matchSymbol .dot then
      let segment ← identifier
      Rule.segments (name ++ "." ++ segment) |>.read
    else return name
  | .type => do
    match ← token with
    | some (.symbol .any) =>
      advance
      return .any
    | some (.symbol .leftBracket) =>
      expect .leftBracket
      let element ← Rule.type |>.read
      expect .rightBracket
      return .array element
    | some (.symbol .leftParen) =>
      expect .leftParen
      let params ← Rule.items .params |>.read
      if ← matchSymbol .arrow then
        let result ← Rule.type |>.read
        return .function params (some result)
      else return .function params none
    | some (.symbol .question) =>
      expect .question
      let inner ← Rule.type |>.read
      return .nullable inner
    | some (.identifier _) =>
      let first ← identifier
      let name ← Rule.segments first |>.read
      return .entity name
    | some (.symbol .union) =>
      expect .union
      expect .less
      let types ← Rule.items .types |>.read
      return .union types
    | some (.symbol .leftBrace) =>
      expect .leftBrace
      let members ← Rule.items .members |>.read
      return .object members
    | some (.string value) =>
      advance
      return .text value
    | some (.number text) =>
      advance
      return .number text
    | _ => refuse .type
  | .typed => do
    let name ← identifier
    expect .colon
    let t ← Rule.type |>.read
    return (name, t)
  | .item .types => Rule.type |>.read
  | .item .members => do
    let (name, t) ← Rule.typed |>.read
    return ⟨name, t⟩
  | .item .params => do
    if ← matchSymbol .ellipsis then
      let (name, t) ← Rule.typed |>.read
      return .variadic name t
    else if ← isNamed then
      let (name, t) ← Rule.typed |>.read
      return .named name t
    else
      let t ← Rule.type |>.read
      return .unnamed t
  | .round kind => do
    let item ← Rule.item kind |>.read
    let _ ← matchSymbol .comma
    return item
  | .items kind => do
    let current ← token
    if current = some (.symbol kind.close) ∨ current = none then
      expect kind.close
      return []
    else
      let first ← Rule.round kind |>.read
      let others ← Rule.items kind |>.read
      return first :: others
partial_fixpoint

/-- Reads a type that nothing follows. -/
def annotation : Descent TypeExpr := do
  advance
  let t ← Rule.type.read
  if (← token) = none then return t else refuse .endOfInput

end Descent

/-! ## Where a scanner has come to -/

/-- The piece that a scanner holds, if it holds one, and those behind it. -/
def Scanner.ahead (scanner : Scanner) : List Piece :=
  match scanner.token with
  | some token => .ok ⟨token, scanner.span⟩ :: scanner.cursor.pieces
  | none => []

/-- A scanner after a scan, and the fault if that is what the scan has met. -/
structure Arrival where
  scanner : Scanner
  fault : Option LexicalError

/-- The scanner after one more scan. -/
def Scanner.arrival (scanner : Scanner) : Arrival where
  scanner := scanner.next
  fault := match scanner.scan.1 with
    | .ok _ => none
    | .error fault => some fault

namespace Arrival

/-- The pieces from the one on that has been met. -/
def pieces (place : Arrival) : List Piece :=
  match place.fault with
  | some fault => .error fault :: place.scanner.cursor.pieces
  | none => place.scanner.ahead

/-- Where the next scan leads. -/
def next (place : Arrival) : Arrival := place.scanner.arrival

end Arrival

/-- A scan brings a scanner to the first of the pieces behind its place. -/
theorem Scanner.pieces_arrival (scanner : Scanner) :
    scanner.arrival.pieces = scanner.cursor.pieces := by
  rw [pieces_eq]
  unfold arrival Arrival.pieces ahead next scan
  rcases scanner.cursor.scan with ⟨_ | (fault | ⟨token, span⟩), behind⟩ <;> rfl

namespace Arrival

variable {place stop : Arrival} {located : Located} {rest : List Piece}

theorem eq_of_pieces_ok (h : place.pieces = .ok located :: rest) :
    place.fault = none ∧ place.scanner.token = some located.token ∧
      place.scanner.span = located.span ∧ place.next.pieces = rest := by
  obtain ⟨scanner, fault⟩ := place
  cases fault with
  | some fault => cases h
  | none =>
    unfold pieces Scanner.ahead at h
    cases htoken : scanner.token with
    | none => simp [htoken] at h
    | some token =>
      simp only [htoken, List.cons.injEq, Except.ok.injEq] at h
      obtain ⟨rfl, rfl⟩ := h
      exact ⟨rfl, rfl, rfl, scanner.pieces_arrival⟩

theorem fault_of_pieces_nil (h : place.pieces = []) : place.fault = none := by
  unfold pieces at h
  split at h
  · cases h
  · assumption

theorem pieces_of_token {token : Token} (hfault : place.fault = none)
    (htoken : place.scanner.token = some token) :
    place.pieces = .ok ⟨token, place.scanner.span⟩ :: place.next.pieces := by
  rw [next, Scanner.pieces_arrival, pieces, hfault]
  simp only [Scanner.ahead, htoken]

/-- The tokens lead from one place to the other, one scan each. -/
inductive Passes : List Located → Arrival → Arrival → Prop
  | nil {place : Arrival} : Passes [] place place
  | cons {place stop : Arrival} {located : Located} {tokens : List Located}
      (hfirst : place.pieces = .ok located :: place.next.pieces)
      (hothers : Passes tokens place.next stop) : Passes (located :: tokens) place stop

end Arrival

namespace Descent

variable {α β : Type}

/-- What a descent does at a place. At a fault it fails at once. -/
def runAt (d : Descent α) (place : Arrival) : Option (Except SyntaxError α × Scanner) :=
  match place.fault with
  | some fault => some (.error (.lexical fault), place.scanner)
  | none => d place.scanner

section RunAt

variable {d d' : Descent α} {f : α → Descent β} {place stop : Arrival}

theorem bind_apply (d : Descent α) (f : α → Descent β) (scanner : Scanner) :
    (d >>= f) scanner = match d scanner with
      | some (.ok value, next) => f value next
      | some (.error error, next) => some (.error error, next)
      | none => none := by
  change Option.bind (d scanner) _ = _
  rcases d scanner with _ | ⟨_ | value, next⟩ <;> rfl

theorem runAt_bind : (d >>= f).runAt place = match d.runAt place with
    | some (.ok value, next) => f value next
    | some (.error error, next) => some (.error error, next)
    | none => none := by
  unfold runAt
  cases place.fault with
  | some fault => rfl
  | none => exact bind_apply d f place.scanner

/-- At a fault all descents do the same. -/
theorem runAt_of_fault {fault : LexicalError} (h : place.fault = some fault) :
    d.runAt place = some (.error (.lexical fault), place.scanner) := by
  rw [runAt, h]

theorem runAt_of_no_fault (h : place.fault = none) : d.runAt place = d place.scanner := by
  rw [runAt, h]

theorem runAt_bind_congr (h : d.runAt place = d'.runAt stop) :
    (d >>= f).runAt place = (d' >>= f).runAt stop := by
  rw [runAt_bind, h, ← runAt_bind]

theorem runAt_bind_of_pure {value : α} (h : d.runAt place = (pure value : Descent α).runAt stop) :
    (d >>= f).runAt place = (f value).runAt stop := by
  rw [runAt_bind_congr h, pure_bind]

theorem refuse_bind (expected : Expected) (f : α → Descent β) :
    (refuse expected >>= f) = refuse expected := by
  funext scanner
  rw [bind_apply]
  rfl

theorem runAt_bind_of_refuse {expected : Expected}
    (h : d.runAt place = (refuse expected : Descent α).runAt stop) :
    (d >>= f).runAt place = (refuse expected : Descent β).runAt stop := by
  rw [runAt_bind_congr h, refuse_bind]

theorem runAt_token_bind {f : Option Token → Descent β} :
    (token >>= f).runAt place = (f place.scanner.token).runAt place := by
  cases h : place.fault with
  | some fault => rw [runAt_of_fault h, runAt_of_fault h]
  | none =>
    rw [runAt_bind, runAt_of_no_fault h, runAt_of_no_fault h]
    rfl

theorem runAt_advance (h : place.fault = none) :
    advance.runAt place = (pure () : Descent Unit).runAt place.next := by
  rw [runAt_of_no_fault h, advance, Arrival.next, Scanner.arrival]
  cases place.scanner.scan.1 <;> rfl

theorem runAt_advance_bind {f : Unit → Descent β} (h : place.fault = none) :
    (advance >>= f).runAt place = (f ()).runAt place.next :=
  runAt_bind_of_pure (runAt_advance h)

end RunAt

/-! ## Following the productions -/

/-- At the place the descent does as the answer of a production says: it takes the same tokens, and
it ends with the same value or refuses where the production does. -/
inductive Agrees (d : Descent α) (place : Arrival) : Except Refusal (α × List Piece) → Prop
  | accepted {value : α} {tokens : List Located} {stop : Arrival}
      (hpass : Arrival.Passes tokens place stop)
      (hrun : d.runAt place = (pure value : Descent α).runAt stop) :
      Agrees d place (.ok (value, stop.pieces))
  | refused {expected : Expected} {tokens : List Located} {stop : Arrival}
      (hpass : Arrival.Passes tokens place stop)
      (hrun : d.runAt place = (refuse expected : Descent α).runAt stop) :
      Agrees d place (.error ⟨expected, stop.pieces⟩)

/-- The descent agrees with the production at all places with fewer than `bound` pieces. -/
def Follows (bound : Nat) (d : Descent α) (read : Production α) : Prop :=
  ∀ place : Arrival, place.pieces.length < bound → Agrees d place (read place.pieces)

end Descent

namespace Arrival.Passes

variable {place middle stop : Arrival} {tokens tokens' : List Located}

theorem append (h : Passes tokens place middle) (h' : Passes tokens' middle stop) :
    Passes (tokens ++ tokens') place stop := by
  induction h with
  | nil => exact h'
  | cons hfirst _ ih => exact .cons hfirst (ih h')

theorem pieces_eq (h : Passes tokens place stop) :
    place.pieces = piecesOf tokens ++ stop.pieces := by
  induction h with
  | nil => rfl
  | cons hfirst _ ih => rw [hfirst, ih, piecesOf_cons, List.cons_append]

theorem length_le (h : Passes tokens place stop) : stop.pieces.length ≤ place.pieces.length := by
  rw [h.pieces_eq, List.length_append]
  exact Nat.le_add_left _ _

theorem eq_iterate (h : Passes tokens place stop) : stop = next^[tokens.length] place := by
  induction h with
  | nil => rfl
  | cons _ _ ih => exact ih

end Arrival.Passes

namespace Descent

variable {α β : Type} {bound : Nat} {d : Descent α} {place : Arrival}

open Arrival (Passes)

theorem Agrees.after {d' : Descent α} {answer : Except Refusal (α × List Piece)}
    {tokens : List Located} {stop : Arrival} (h : Agrees d' stop answer)
    (hpass : Passes tokens place stop) (hrun : d.runAt place = d'.runAt stop) :
    Agrees d place answer := by
  cases h with
  | accepted hpass' hrun' => exact .accepted (hpass.append hpass') (hrun.trans hrun')
  | refused hpass' hrun' => exact .refused (hpass.append hpass') (hrun.trans hrun')

/-- At a fault it makes no difference what a descent does. -/
theorem Agrees.congr {d' : Descent α} {answer : Except Refusal (α × List Piece)}
    (h : Agrees d' place answer) (hrun : place.fault = none → d.runAt place = d'.runAt place) :
    Agrees d place answer := by
  refine h.after .nil ?_
  cases hfault : place.fault with
  | none => exact hrun hfault
  | some fault => rw [runAt_of_fault hfault, runAt_of_fault hfault]

theorem agrees_pure (value : α) (place : Arrival) :
    Agrees (pure value) place (Production.accept value place.pieces) :=
  .accepted .nil rfl

theorem agrees_refuse (expected : Expected) (place : Arrival) :
    Agrees (refuse expected : Descent α) place (.error ⟨expected, place.pieces⟩) :=
  .refused .nil rfl

theorem Agrees.andThen {f : α → Descent β} {read : Production α} {view : α → Production β}
    (h : Agrees d place (read place.pieces))
    (hview : ∀ value stop, stop.pieces.length ≤ place.pieces.length →
      read place.pieces = .ok (value, stop.pieces) →
      Agrees (f value) stop (view value stop.pieces)) :
    Agrees (d >>= f) place (read.andThen view place.pieces) := by
  generalize hread : read place.pieces = answer at h
  cases h with
  | accepted hpass hrun =>
    rw [Production.andThen_of_ok hread]
    exact (hview _ _ hpass.length_le hread).after hpass (runAt_bind_of_pure hrun)
  | refused hpass hrun =>
    rw [Production.andThen_of_error hread]
    exact .refused hpass (runAt_bind_of_refuse hrun)

theorem Agrees.map {read : Production α} (f : α → β) (h : Agrees d place (read place.pieces)) :
    Agrees (d >>= fun value ↦ pure (f value)) place (read.map f place.pieces) := by
  generalize hread : read place.pieces = answer at h
  cases h with
  | accepted hpass hrun =>
    rw [Production.map_of_ok f hread]
    exact .accepted hpass (runAt_bind_of_pure hrun)
  | refused hpass hrun =>
    rw [Production.map_of_error f hread]
    exact .refused hpass (runAt_bind_of_refuse hrun)

/-! ## Single tokens -/

theorem token_eq_iff_headIs (hfault : place.fault = none) (symbol : Symbol) :
    place.scanner.token = some (.symbol symbol) ↔ headIs symbol place.pieces = true := by
  rw [headIs_iff]
  constructor
  · intro htoken
    exact ⟨_, _, Arrival.pieces_of_token hfault htoken⟩
  · rintro ⟨span, rest, hpieces⟩
    exact (Arrival.eq_of_pieces_ok hpieces).2.1

theorem token_eq_none_iff (hfault : place.fault = none) :
    place.scanner.token = none ↔ place.pieces = [] := by
  rw [Arrival.pieces, hfault]
  cases htoken : place.scanner.token <;> simp [Scanner.ahead, htoken]

theorem token_ne_of_not_headIs {symbol : Symbol} (hfault : place.fault = none)
    (h : headIs symbol place.pieces = false) : place.scanner.token ≠ some (.symbol symbol) := by
  rw [Ne, token_eq_iff_headIs hfault, h]
  exact Bool.false_ne_true

theorem pieces_eq_of_headIs {symbol : Symbol} (h : headIs symbol place.pieces = true) :
    ∃ span, place.pieces = .ok ⟨.symbol symbol, span⟩ :: place.next.pieces := by
  obtain ⟨span, rest, hpieces⟩ := headIs_iff.mp h
  obtain ⟨-, -, -, hnext⟩ := Arrival.eq_of_pieces_ok hpieces
  exact ⟨span, hnext ▸ hpieces⟩

theorem length_next_lt_of_headIs {symbol : Symbol} (h : headIs symbol place.pieces = true) :
    place.next.pieces.length < place.pieces.length := by
  obtain ⟨span, hpieces⟩ := pieces_eq_of_headIs h
  rw [hpieces]
  exact Nat.lt_succ_self _

theorem symbol_pieces_of_headIs {symbol : Symbol} (h : headIs symbol place.pieces = true) :
    Production.symbol symbol place.pieces = .ok ((), place.next.pieces) := by
  obtain ⟨span, hpieces⟩ := pieces_eq_of_headIs h
  rw [Production.symbol_of_headIs h, hpieces, List.tail_cons]

theorem runAt_matchSymbol_of_headIs {symbol : Symbol} (h : headIs symbol place.pieces = true) :
    (matchSymbol symbol).runAt place = (pure true : Descent Bool).runAt place.next := by
  obtain ⟨span, hpieces⟩ := pieces_eq_of_headIs h
  obtain ⟨hfault, htoken, -, -⟩ := Arrival.eq_of_pieces_ok hpieces
  rw [matchSymbol, runAt_token_bind, htoken, if_pos rfl, runAt_advance_bind hfault]

theorem runAt_matchSymbol_of_not_headIs {symbol : Symbol} (hfault : place.fault = none)
    (h : headIs symbol place.pieces = false) :
    (matchSymbol symbol).runAt place = (pure false : Descent Bool).runAt place := by
  rw [matchSymbol, runAt_token_bind, if_neg (token_ne_of_not_headIs hfault h)]

/-- Whether the symbol is there or not decides how it goes on. -/
theorem agrees_matchSymbol_bind {symbol : Symbol} {f : Bool → Descent α} {yes no : Production α}
    (hyes : headIs symbol place.pieces = true →
      Agrees (f true) place.next (yes place.next.pieces))
    (hno : headIs symbol place.pieces = false → Agrees (f false) place (no place.pieces)) :
    Agrees (matchSymbol symbol >>= f) place
      (Production.choose (headIs symbol) ((Production.symbol symbol).andThen fun _ ↦ yes) no
        place.pieces) := by
  cases h : headIs symbol place.pieces with
  | true =>
    obtain ⟨span, hpieces⟩ := pieces_eq_of_headIs h
    rw [Production.choose_of_true h, Production.andThen_of_ok (symbol_pieces_of_headIs h)]
    exact (hyes h).after (.cons hpieces .nil) (runAt_bind_of_pure (runAt_matchSymbol_of_headIs h))
  | false =>
    rw [Production.choose_of_false h]
    exact (hno h).congr fun hfault ↦
      runAt_bind_of_pure (runAt_matchSymbol_of_not_headIs hfault h)

theorem runAt_expect {symbol : Symbol} {span : Span} {rest : List Piece}
    (h : place.pieces = .ok ⟨.symbol symbol, span⟩ :: rest) :
    (expect symbol).runAt place = (pure () : Descent Unit).runAt place.next := by
  obtain ⟨hfault, htoken, -, -⟩ := Arrival.eq_of_pieces_ok h
  rw [expect, runAt_token_bind, htoken, if_pos rfl, runAt_advance hfault]

theorem agrees_expect (symbol : Symbol) (place : Arrival) :
    Agrees (expect symbol) place (Production.symbol symbol place.pieces) := by
  cases h : headIs symbol place.pieces with
  | true =>
    obtain ⟨span, hpieces⟩ := pieces_eq_of_headIs h
    rw [symbol_pieces_of_headIs h]
    exact .accepted (.cons hpieces .nil) (runAt_expect hpieces)
  | false =>
    rw [Production.symbol_of_not_headIs h]
    refine (agrees_refuse _ place).congr fun hfault ↦ ?_
    rw [expect, runAt_token_bind, if_neg (token_ne_of_not_headIs hfault h)]

theorem runAt_identifier {name : String} {span : Span} {rest : List Piece}
    (h : place.pieces = .ok ⟨.identifier name, span⟩ :: rest) :
    identifier.runAt place = (pure name : Descent String).runAt place.next := by
  obtain ⟨hfault, htoken, -, -⟩ := Arrival.eq_of_pieces_ok h
  rw [identifier, runAt_token_bind, htoken]
  exact runAt_advance_bind hfault

theorem agrees_identifier (place : Arrival) :
    Agrees identifier place (Production.identifier place.pieces) := by
  by_cases h : ∃ name span rest, place.pieces = .ok ⟨.identifier name, span⟩ :: rest
  · obtain ⟨name, span, rest, hpieces⟩ := h
    obtain ⟨-, -, -, rfl⟩ := Arrival.eq_of_pieces_ok hpieces
    have hread : Production.identifier place.pieces = .ok (name, place.next.pieces) := by
      rw [hpieces]
      rfl
    rw [hread]
    exact .accepted (.cons hpieces .nil) (runAt_identifier hpieces)
  · have hne : ∀ name span rest, place.pieces ≠ .ok ⟨.identifier name, span⟩ :: rest :=
      fun name span rest heq ↦ h ⟨name, span, rest, heq⟩
    rw [Production.identifier_of_ne hne]
    refine (agrees_refuse _ place).congr fun hfault ↦ ?_
    rw [identifier, runAt_token_bind]
    split
    · next name htoken => exact absurd (Arrival.pieces_of_token hfault htoken) (hne name _ _)
    · rfl

end Descent

end TypeNotation
