import TypeNotation.Token.Basic
import TypeNotation.TypeExpr.Basic

/-!
# Derivations of the notation

The grammar of the notation as a relation between lists of tokens and type expressions, with no
order among its alternatives:

    Type     := Any | Nullable | Entity | Union | Function | Array | Object | String | Number
    Any      := '*' | 'any'
    Nullable := '?' Type
    Entity   := Identifier ('.' Identifier)*
    Union    := 'union' '<' (Type ','?)* '>'
    Function := '(' (Param ','?)* ')' ('→' Type)?
    Param    := '...' Identifier ':' Type | Identifier ':' Type | Type
    Array    := '[' Type ']'
    Object   := '{' (Identifier ':' Type ','?)* '}'

A rule that begins with a single token says which lists may stand behind that token; the lemmas of
the second half read the relation that way, one first token at a time. They are what a reader that
decides on its first token is compared with.
-/

namespace TypeNotation

/-! ## The relation -/

/-- Items one after the other, each with or without a comma behind it. -/
inductive ListOf {α : Type} (Item : List Token → α → Prop) : List Token → List α → Prop
  | nil : ListOf Item [] []
  | cons {first others : List Token} {a : α} {as : List α}
      (head : Item first a) (tail : ListOf Item others as) :
      ListOf Item (first ++ others) (a :: as)
  | consComma {first others : List Token} {a : α} {as : List α}
      (head : Item first a) (tail : ListOf Item others as) :
      ListOf Item (first ++ .symbol .comma :: others) (a :: as)

/-- The tokens of further parts of a dotted name, each behind a dot. -/
def segmentTokens (segments : List String) : List Token :=
  segments.flatMap fun segment ↦ [.symbol .dot, .identifier segment]

mutual

/-- A list of tokens is a type. -/
inductive Derives : List Token → TypeExpr → Prop
  | any : Derives [.symbol .any] .any
  | text (value : String) : Derives [.string value] (.text value)
  | number (text : String) : Derives [.number text] (.number text)
  | entity (name : String) (segments : List String) :
      Derives (.identifier name :: segmentTokens segments)
        (.entity (".".intercalate (name :: segments)))
  | nullable {tokens : List Token} {inner : TypeExpr} (type : Derives tokens inner) :
      Derives (.symbol .question :: tokens) (.nullable inner)
  | array {tokens : List Token} {element : TypeExpr} (type : Derives tokens element) :
      Derives (.symbol .leftBracket :: tokens ++ [.symbol .rightBracket]) (.array element)
  | union {tokens : List Token} {members : List TypeExpr} (items : ListOf Derives tokens members) :
      Derives (.symbol .union :: .symbol .less :: tokens ++ [.symbol .greater]) (.union members)
  | object {tokens : List Token} {members : List Member}
      (items : ListOf DerivesMember tokens members) :
      Derives (.symbol .leftBrace :: tokens ++ [.symbol .rightBrace]) (.object members)
  | function {tokens : List Token} {params : List Param}
      (items : ListOf DerivesParam tokens params) :
      Derives (.symbol .leftParen :: tokens ++ [.symbol .rightParen]) (.function params none)
  | functionTo {tokens resultTokens : List Token} {params : List Param} {result : TypeExpr}
      (items : ListOf DerivesParam tokens params) (type : Derives resultTokens result) :
      Derives
        (.symbol .leftParen :: tokens ++ .symbol .rightParen :: .symbol .arrow :: resultTokens)
        (.function params (some result))

inductive DerivesParam : List Token → Param → Prop
  | unnamed {tokens : List Token} {t : TypeExpr} (type : Derives tokens t) :
      DerivesParam tokens (.unnamed t)
  | named {tokens : List Token} {t : TypeExpr} (name : String) (type : Derives tokens t) :
      DerivesParam (.identifier name :: .symbol .colon :: tokens) (.named name t)
  | variadic {tokens : List Token} {t : TypeExpr} (name : String) (type : Derives tokens t) :
      DerivesParam (.symbol .ellipsis :: .identifier name :: .symbol .colon :: tokens)
        (.variadic name t)

inductive DerivesMember : List Token → Member → Prop
  | mk {tokens : List Token} {t : TypeExpr} (name : String) (type : Derives tokens t) :
      DerivesMember (.identifier name :: .symbol .colon :: tokens) ⟨name, t⟩

end

/-- A list of tokens can be continued to a type. -/
def Viable (tokens : List Token) : Prop :=
  ∃ (more : List Token) (type : TypeExpr), Derives (tokens ++ more) type

theorem Viable.of_append {before after : List Token} (h : Viable (before ++ after)) :
    Viable before := by
  obtain ⟨more, type, hd⟩ := h
  exact ⟨after ++ more, type, by rwa [← List.append_assoc]⟩

theorem Derives.viable {tokens : List Token} {type : TypeExpr} (h : Derives tokens type) :
    Viable tokens :=
  ⟨[], type, by rwa [List.append_nil]⟩

/-! ## First tokens -/

/-- Whether an item of a list can begin with the token. -/
def Token.begins : Token → Bool
  | .symbol .any | .symbol .union | .symbol .question | .symbol .ellipsis | .symbol .leftParen
  | .symbol .leftBracket | .symbol .leftBrace => true
  | .symbol _ => false
  | .identifier _ | .number _ | .string _ => true

theorem Derives.begins {tokens : List Token} {type : TypeExpr} (h : Derives tokens type) :
    ∃ first others, tokens = first :: others ∧ first.begins = true ∧
      first ≠ .symbol .ellipsis := by
  cases h <;> exact ⟨_, _, rfl, rfl, by simp⟩

theorem DerivesParam.begins {tokens : List Token} {param : Param} (h : DerivesParam tokens param) :
    ∃ first others, tokens = first :: others ∧ first.begins = true := by
  cases h with
  | unnamed type =>
    obtain ⟨first, others, rfl, hbegins, -⟩ := type.begins
    exact ⟨first, others, rfl, hbegins⟩
  | named name type => exact ⟨_, _, rfl, rfl⟩
  | variadic name type => exact ⟨_, _, rfl, rfl⟩

theorem DerivesMember.begins {tokens : List Token} {member : Member}
    (h : DerivesMember tokens member) :
    ∃ first others, tokens = first :: others ∧ first.begins = true := by
  cases h with
  | mk name type => exact ⟨_, _, rfl, rfl⟩

theorem ListOf.begins {α : Type} {Item : List Token → α → Prop}
    (hitem : ∀ {tokens a}, Item tokens a →
      ∃ first others, tokens = first :: others ∧ first.begins = true)
    {tokens : List Token} {as : List α} (h : ListOf Item tokens as) :
    tokens = [] ∧ as = [] ∨ ∃ first others, tokens = first :: others ∧ first.begins = true := by
  cases h with
  | nil => exact .inl ⟨rfl, rfl⟩
  | cons head tail =>
    obtain ⟨first, others, rfl, hbegins⟩ := hitem head
    exact .inr ⟨first, _, rfl, hbegins⟩
  | consComma head tail =>
    obtain ⟨first, others, rfl, hbegins⟩ := hitem head
    exact .inr ⟨first, _, rfl, hbegins⟩

/-! ## What may stand behind a first token -/

section Behind

variable {tokens : List Token} {type : TypeExpr}

theorem derives_any_iff :
    Derives (.symbol .any :: tokens) type ↔ tokens = [] ∧ type = .any := by
  constructor
  · rintro ⟨⟩
    exact ⟨rfl, rfl⟩
  · rintro ⟨rfl, rfl⟩
    exact .any

theorem derives_string_iff {value : String} :
    Derives (.string value :: tokens) type ↔ tokens = [] ∧ type = .text value := by
  constructor
  · rintro ⟨⟩
    exact ⟨rfl, rfl⟩
  · rintro ⟨rfl, rfl⟩
    exact .text value

theorem derives_number_iff {text : String} :
    Derives (.number text :: tokens) type ↔ tokens = [] ∧ type = .number text := by
  constructor
  · rintro ⟨⟩
    exact ⟨rfl, rfl⟩
  · rintro ⟨rfl, rfl⟩
    exact .number text

theorem derives_identifier_iff {name : String} :
    Derives (.identifier name :: tokens) type ↔
      ∃ segments, tokens = segmentTokens segments ∧
        type = .entity (".".intercalate (name :: segments)) := by
  constructor
  · rintro ⟨⟩
    exact ⟨_, rfl, rfl⟩
  · rintro ⟨segments, rfl, rfl⟩
    exact .entity name segments

theorem derives_question_iff :
    Derives (.symbol .question :: tokens) type ↔
      ∃ inner, Derives tokens inner ∧ type = .nullable inner := by
  constructor
  · rintro ⟨⟩
    exact ⟨_, ‹_›, rfl⟩
  · rintro ⟨inner, h, rfl⟩
    exact .nullable h

theorem derives_leftBracket_iff :
    Derives (.symbol .leftBracket :: tokens) type ↔
      ∃ element inside, tokens = inside ++ [.symbol .rightBracket] ∧ Derives inside element ∧
        type = .array element := by
  constructor
  · rintro ⟨⟩
    exact ⟨_, _, rfl, ‹_›, rfl⟩
  · rintro ⟨element, inside, rfl, h, rfl⟩
    exact .array h

theorem derives_union_iff :
    Derives (.symbol .union :: tokens) type ↔
      ∃ members inside, tokens = .symbol .less :: inside ++ [.symbol .greater] ∧
        ListOf Derives inside members ∧ type = .union members := by
  constructor
  · rintro ⟨⟩
    exact ⟨_, _, rfl, ‹_›, rfl⟩
  · rintro ⟨members, inside, rfl, h, rfl⟩
    exact .union h

theorem derives_leftBrace_iff :
    Derives (.symbol .leftBrace :: tokens) type ↔
      ∃ members inside, tokens = inside ++ [.symbol .rightBrace] ∧
        ListOf DerivesMember inside members ∧ type = .object members := by
  constructor
  · rintro ⟨⟩
    exact ⟨_, _, rfl, ‹_›, rfl⟩
  · rintro ⟨members, inside, rfl, h, rfl⟩
    exact .object h

/-- What may stand behind the parameters of a function: nothing, or an arrow and a type. -/
inductive DerivesResult : List Token → Option TypeExpr → Prop
  | none : DerivesResult [] none
  | some {tokens : List Token} {result : TypeExpr} (type : Derives tokens result) :
      DerivesResult (.symbol .arrow :: tokens) (some result)

theorem derives_leftParen_iff :
    Derives (.symbol .leftParen :: tokens) type ↔
      ∃ params result inside behind, tokens = inside ++ .symbol .rightParen :: behind ∧
        ListOf DerivesParam inside params ∧ DerivesResult behind result ∧
        type = .function params result := by
  constructor
  · rintro ⟨⟩
    · exact ⟨_, none, _, [], rfl, ‹_›, .none, rfl⟩
    · exact ⟨_, some _, _, _, rfl, ‹_›, .some ‹_›, rfl⟩
  · rintro ⟨params, result, inside, behind, rfl, h, hr, rfl⟩
    cases hr with
    | none => exact .function h
    | some hr => exact .functionTo h hr

theorem derivesParam_identifier_iff {name : String} {param : Param} :
    DerivesParam (.identifier name :: tokens) param ↔
      (∃ t inner, tokens = .symbol .colon :: inner ∧ Derives inner t ∧ param = .named name t) ∨
      ∃ segments, tokens = segmentTokens segments ∧
        param = .unnamed (.entity (".".intercalate (name :: segments))) := by
  constructor
  · intro h
    cases h with
    | unnamed h =>
      obtain ⟨segments, rfl, rfl⟩ := derives_identifier_iff.mp h
      exact .inr ⟨segments, rfl, rfl⟩
    | named name h => exact .inl ⟨_, _, rfl, h, rfl⟩
  · rintro (⟨t, inner, rfl, h, rfl⟩ | ⟨segments, rfl, rfl⟩)
    · exact .named name h
    · exact .unnamed (.entity name segments)

end Behind

end TypeNotation
