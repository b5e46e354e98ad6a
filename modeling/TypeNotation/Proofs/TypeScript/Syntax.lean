import TypeNotation.Proofs.Json.Strings
import TypeNotation.Proofs.Lexical.Numbers

/-!
# Types of TypeScript and their texts

The part of TypeScript in which types are rendered, as a relation between texts and types:

    Type        := '(' Params ') => ' Type | Alternative (' | ' Alternative)*
    Alternative := Primary '[]'*
    Primary     := '(' Type ')' | '{}' | '{ ' Member ('; ' Member)* ' }' | Path | String | Number
    Params      := (Param (', ' Param)*)?
    Param       := '...'? Word ': ' Type
    Member      := Word ': ' Type

Strings are those of JSON. Parentheses leave no trace in the type, and a single alternative is that
alternative. Each way to read a primary type has a label, so that two readings can be compared by
their labels first.
-/

namespace TypeNotation

/-! ## Types -/

mutual

/-- A type of TypeScript. -/
inductive TsType
  | name (name : String)
  | text (value : String)
  | number (text : String)
  | array (element : TsType)
  | union (alternatives : List TsType)
  | function (params : List TsParam) (result : TsType)
  | object (members : List TsMember)

/-- A parameter of a function; one that takes all further arguments has the type of their array. -/
structure TsParam where
  name : String
  type : TsType
  rest : Bool

structure TsMember where
  name : String
  type : TsType

end

/-- Alternatives as one type. -/
def TsType.join : List TsType → TsType
  | [type] => type
  | types => .union types

/-- An array of arrays of arrays. -/
def TsType.arrays : Nat → TsType → TsType
  | 0, type => type
  | count + 1, type => .array (arrays count type)

/-- The brackets of an array of arrays of arrays. -/
def brackets : Nat → List Char
  | 0 => []
  | count + 1 => '[' :: ']' :: brackets count

theorem brackets_append (count : Nat) : brackets count ++ ['[', ']'] = brackets (count + 1) := by
  induction count with
  | zero => rfl
  | succ count ih => rw [brackets, List.cons_append, List.cons_append, ih, ← brackets]

/-! ## Texts -/

/-- Items with the same text between them, at least one. -/
inductive SeparatedBy {α : Type} (separator : List Char) (Item : List Char → α → Prop) :
    List Char → List α → Prop
  | single {text : List Char} {a : α} (hitem : Item text a) :
      SeparatedBy separator Item text [a]
  | cons {text others : List Char} {a : α} {as : List α} (hitem : Item text a)
      (htail : SeparatedBy separator Item others as) :
      SeparatedBy separator Item (text ++ (separator ++ others)) (a :: as)

/-- The ways to read a primary type. -/
inductive PrimaryRule
  | parentheses
  | emptyObject
  | object
  | path
  | string
  | number

mutual

/-- The text is a type. -/
inductive ReadsType : List Char → TsType → Prop
  | function {paramText resultText : List Char} {params : List TsParam} {result : TsType}
      (hparams : ReadsParams paramText params) (hresult : ReadsType resultText result) :
      ReadsType ('(' :: (paramText ++ (") => ".toList ++ resultText))) (.function params result)
  | alternatives {text : List Char} {types : List TsType}
      (htypes : SeparatedBy " | ".toList ReadsAlternative text types) :
      ReadsType text (.join types)

inductive ReadsAlternative : List Char → TsType → Prop
  | mk {rule : PrimaryRule} {text : List Char} {type : TsType}
      (hprimary : ReadsPrimary rule text type) (count : Nat) :
      ReadsAlternative (text ++ brackets count) (.arrays count type)

/-- The text is a primary type, read by the rule. -/
inductive ReadsPrimary : PrimaryRule → List Char → TsType → Prop
  | parentheses {text : List Char} {type : TsType} (htype : ReadsType text type) :
      ReadsPrimary .parentheses ('(' :: (text ++ [')'])) type
  | emptyObject : ReadsPrimary .emptyObject ['{', '}'] (.object [])
  | object {text : List Char} {members : List TsMember}
      (hmembers : SeparatedBy "; ".toList ReadsMember text members) :
      ReadsPrimary .object ('{' :: ' ' :: (text ++ [' ', '}'])) (.object members)
  | path {name : String} (hname : IsPath name) : ReadsPrimary .path name.toList (.name name)
  | string {text value : List Char} (hstring : IsJsonString text value) :
      ReadsPrimary .string text (.text (String.ofList value))
  | number {text : List Char} (hnumber : IsNumber text) :
      ReadsPrimary .number text (.number (String.ofList text))

inductive ReadsParams : List Char → List TsParam → Prop
  | none : ReadsParams [] []
  | some {text : List Char} {params : List TsParam}
      (hparams : SeparatedBy ", ".toList ReadsParam text params) : ReadsParams text params

inductive ReadsParam : List Char → TsParam → Prop
  | single {name : String} {text : List Char} {type : TsType} (hname : IsWord name.toList)
      (htype : ReadsType text type) :
      ReadsParam (name.toList ++ (':' :: ' ' :: text)) ⟨name, type, false⟩
  | rest {name : String} {text : List Char} {type : TsType} (hname : IsWord name.toList)
      (htype : ReadsType text type) :
      ReadsParam ("...".toList ++ (name.toList ++ (':' :: ' ' :: text))) ⟨name, type, true⟩

inductive ReadsMember : List Char → TsMember → Prop
  | mk {name : String} {text : List Char} {type : TsType} (hname : IsWord name.toList)
      (htype : ReadsType text type) :
      ReadsMember (name.toList ++ (':' :: ' ' :: text)) ⟨name, type⟩

end

end TypeNotation
