import TypeNotation.Parser.Outcome
import TypeNotation.TypeExpr.Basic

/-!
# Productions of the notation

    Type     := Any | Nullable | Entity | Union | Function | Array | Object | String | Number
    Any      := '*' | 'any'
    Nullable := '?' Type
    Entity   := Identifier ('.' Identifier)*
    Union    := 'union' '<' (Type ','?)* '>'
    Function := '(' (Param ','?)* ')' ('→' Type)?
    Param    := '...' Typed | Typed | Type
    Array    := '[' Type ']'
    Object   := '{' (Typed ','?)* '}'
    Typed    := Identifier ':' Type

The first piece decides between the forms of a type. Only a parameter needs two: it is named exactly
when it begins with an identifier and a colon, and otherwise it is read as a type from its first
piece. The comma behind an item of a list may always be left out.

`readType` is the only recursive production. The others take the production for types as an
argument that may be used on shorter lists of pieces only.
-/

namespace TypeNotation

/-! ## Names -/

/-- Reads the parts of a dotted name behind the first, each after a dot. -/
def readSegments : (input : List Piece) → Outcome (List String) (input.length + 1)
  | .ok ⟨.symbol .dot, _⟩ :: .ok ⟨.identifier segment, _⟩ :: rest =>
    ((readSegments rest).within (by simp only [List.length_cons]; omega)).map (segment :: ·)
  | .ok ⟨.symbol .dot, _⟩ :: rest => .refused ⟨.identifier, rest⟩ []
  | rest => .accepted [] rest (Nat.lt_succ_self _) []

/-! ## Lists -/

/-- Reads items up to and including the symbol `close`. -/
def readItems {α : Type} {bound : Nat} (close : Symbol)
    (item : (input : List Piece) → input.length < bound → Outcome α input.length)
    (input : List Piece) (h : input.length < bound) : Outcome (List α) input.length :=
  match input, h with
  | [], _ => .refused ⟨.symbol close, []⟩ []
  | piece :: pieces, h =>
    if headIs close (piece :: pieces) then .accepted [] pieces (Nat.lt_succ_self _) []
    else (item (piece :: pieces) h).andThen fun value rest hrest ↦
      have hle := Nat.lt_of_le_of_lt (length_dropComma_le rest) hrest
      ((readItems close item (dropComma rest) (Nat.lt_trans hle h)).within (Nat.le_of_lt hle)).map
        (value :: ·)
termination_by input.length
decreasing_by exact hle

/-! ## Names with types -/

/-- Reads a name, a colon and a type. -/
def readTyped {bound : Nat}
    (type : (input : List Piece) → input.length < bound → Outcome TypeExpr input.length)
    (input : List Piece) (h : input.length < bound) : Outcome (String × TypeExpr) input.length :=
  match input, h with
  | .ok ⟨.identifier name, _⟩ :: pieces, h =>
    ((expect .colon pieces).within (Nat.le_succ _)).andThen fun _ rest hrest ↦
      ((type rest (Nat.lt_trans hrest h)).within (Nat.le_of_lt hrest)).map (name, ·)
  | input, _ => .refused ⟨.identifier, input⟩ []

/-- Whether a name and a colon stand at the front. -/
def startsNamed : List Piece → Bool
  | .ok ⟨.identifier _, _⟩ :: rest => headIs .colon rest
  | _ => false

def readParam {bound : Nat}
    (type : (input : List Piece) → input.length < bound → Outcome TypeExpr input.length)
    (input : List Piece) (h : input.length < bound) : Outcome Param input.length :=
  match input, h with
  | .ok ⟨.symbol .ellipsis, _⟩ :: pieces, h =>
    ((readTyped type pieces (Nat.lt_of_succ_lt h)).within (Nat.le_succ _)).map fun (name, t) ↦
      .variadic name t
  | .ok ⟨token, span⟩ :: pieces, h =>
    let param := .ok ⟨token, span⟩ :: pieces
    if startsNamed param then
      ((readTyped type param h).map fun (name, t) ↦ .named name t).noting ⟨span, true⟩
    else ((type param h).map .unnamed).noting ⟨span, false⟩
  | input, _ => .refused ⟨.type, input⟩ []

def readMember {bound : Nat}
    (type : (input : List Piece) → input.length < bound → Outcome TypeExpr input.length)
    (input : List Piece) (h : input.length < bound) : Outcome Member input.length :=
  (readTyped type input h).map fun (name, t) ↦ ⟨name, t⟩

/-! ## Types -/

def readType (input : List Piece) : Outcome TypeExpr input.length :=
  match input with
  | .ok ⟨.symbol .any, _⟩ :: pieces => .accepted .any pieces (Nat.lt_succ_self _) []
  | .ok ⟨.string value, _⟩ :: pieces => .accepted (.text value) pieces (Nat.lt_succ_self _) []
  | .ok ⟨.number text, _⟩ :: pieces => .accepted (.number text) pieces (Nat.lt_succ_self _) []
  | .ok ⟨.identifier name, _⟩ :: pieces =>
    (readSegments pieces).map fun segments ↦ .entity (".".intercalate (name :: segments))
  | .ok ⟨.symbol .question, _⟩ :: pieces =>
    ((readType pieces).within (Nat.le_succ _)).map .nullable
  | .ok ⟨.symbol .leftBracket, _⟩ :: pieces =>
    ((readType pieces).within (Nat.le_succ _)).andThen fun element rest hrest ↦
      ((expect .rightBracket rest).within (Nat.le_of_lt hrest)).map fun _ ↦ .array element
  | .ok ⟨.symbol .union, _⟩ :: pieces =>
    ((expect .less pieces).within (Nat.le_succ _)).andThen fun _ rest hrest ↦
      ((readItems .greater (fun inner _ ↦ readType inner) rest hrest).within
        (Nat.le_of_lt hrest)).map .union
  | .ok ⟨.symbol .leftBrace, _⟩ :: pieces =>
    ((readItems .rightBrace (readMember fun inner _ ↦ readType inner) pieces
      (Nat.lt_succ_self _)).within (Nat.le_succ _)).map .object
  | .ok ⟨.symbol .leftParen, _⟩ :: pieces =>
    ((readItems .rightParen (readParam fun inner _ ↦ readType inner) pieces
      (Nat.lt_succ_self _)).within (Nat.le_succ _)).andThen fun params rest hrest ↦
        if harrow : headIs .arrow rest = true then
          have htail := Nat.lt_trans (length_tail_lt harrow) hrest
          ((readType rest.tail).within (Nat.le_of_lt htail)).map fun t ↦ .function params (some t)
        else .accepted (.function params none) rest hrest []
  | input => .refused ⟨.type, input⟩ []
termination_by input.length
decreasing_by
  all_goals first
  | exact Nat.lt_succ_self _
  | assumption

/-- Reads a type that nothing follows. -/
def readWholeType (input : List Piece) : Outcome TypeExpr input.length :=
  (readType input).andThen fun type rest hrest ↦
    match rest with
    | [] => .accepted type [] hrest []
    | rest => .refused ⟨.endOfInput, rest⟩ []

end TypeNotation
