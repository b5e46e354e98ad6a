import TypeNotation.Json.Skip
import TypeNotation.TypeExpr.Basic

/-!
# Reading type expressions from JSON

The reader accepts what `TypeExpr.toJson` writes and a little more: members in any order and with
unknown ones among them, `null` for an absent part, records written as arrays of their fields, and
the type of every value written as an object. Everything is checked from left to right: an unknown
kind of type is reported at its name, a repeated field at its second name, a missing one at the end
of its record.

The recursion is on the levels of nesting that are left, each array, object and record taking one.
-/

namespace TypeNotation

/-! ## Kinds of types -/

/-- The kinds of types, as they are told apart in JSON. -/
inductive Variant
  | any
  | entity
  | nullable
  | union
  | function
  | array
  | object
  | text
  | number
  deriving DecidableEq, Repr

namespace Variant

def name : Variant → String
  | any => "Any"
  | entity => "Entity"
  | nullable => "Nullable"
  | union => "Union"
  | function => "Function"
  | array => "Array"
  | object => "Object"
  | text => "StringLiteral"
  | number => "NumberLiteral"

/-- All kinds, in the order in which messages list them. -/
def all : List Variant :=
  [any, entity, nullable, union, function, array, object, text, number]

end Variant

/-- Reads the name of a kind behind its opening quote. -/
def readVariantName : JsonReader Variant := fun input ↦ do
  let name ← readStringBody input
  match Variant.all.find? fun variant ↦ variant.name.toList = name.value with
  | some variant => .ok (name.map fun _ ↦ variant)
  | none => .error (.before
      (.unknownVariant (String.ofList name.value) (Variant.all.map Variant.name)) name.rest)

/-- Reads the only key of a type that is written as an object. -/
def readVariantKey : JsonReader Variant := afterSpace fun input ↦
  match input with
  | [] => .error (.before .endInObject [])
  | '"' :: rest => (readVariantName rest).map (·.within (length_le_behind rest))
  | '}' :: _ => .error (.inside .expectedValue input)
  | rest => .error (.inside .keyNotString rest)

/-- Reads the end of a type that is written as an object. -/
def readVariantEnd : JsonReader Unit := afterSpace fun input ↦
  match input with
  | [] => .error (.before .endInObject [])
  | '}' :: rest => .ok ⟨(), rest, length_lt_behind rest⟩
  | rest => .error (.before .expectedValue rest)

/-! ## Records -/

/-- Reads the value of a field that may be given only once. -/
def readOnce {σ : Type} (seen : Bool) (name : String) (field : JsonReader σ) : JsonReader σ :=
  fun input ↦
    if seen then .error (.before (.duplicateField name) input) else readField field input

/-- Passes over the value of an unknown field. -/
def readUnknown {σ : Type} (state : σ) : JsonReader σ := fun input ↦
  (readField skipValue input).map (·.map fun _ ↦ state)

/-- A field that has to be there once a record is read. -/
def required {α β : Type} {bound : Nat} (name : String) (field : Option α) (taken : Taken β bound) :
    Except JsonError α :=
  match field with
  | some value => .ok value
  | none => .error (.before (.missingField name) taken.rest)

/-- Reads a field of a record written as an array, where the array may not have ended. -/
def readOrderedRequired {α : Type} (index : Nat) (expected : String) (field : JsonReader α) :
    JsonReader α := fun input ↦
  match nextItem (index = 0) input with
  | .error error => .error error
  | .ok none => .error (.before (.invalidLength index expected) input)
  | .ok (some start) => (field start.1).map (·.within start.2)

section

variable {levels : Nat} (type : (inner : Nat) → inner < levels → JsonReader TypeExpr)

/-- The fields of a parameter read so far. -/
structure ParamFields where
  type : Option TypeExpr := none
  name : Option (Option String) := none
  rest : Option Bool := none

def readParamJson : JsonReader Param :=
  readRecord "FunctionParam" levels
    (fun inner h input ↦ do
      let type ← readOrderedRequired 0 "struct FunctionParam with 3 elements" (type inner h) input
      let name ← readOrderedField false (readNullable readText) type.rest
      let rest ← readOrderedField false readBool name.rest
      let close ← readArrayEnd rest.rest
      .ok ⟨⟨type.value, name.value.getD none, rest.value.getD false⟩, close.rest, by
        have h₁ := type.shorter
        have h₂ := name.shorter
        have h₃ := rest.shorter
        have h₄ := close.shorter
        omega⟩)
    (fun inner h input ↦ do
      let member (fields : ParamFields) (key : String) : JsonReader ParamFields :=
        if key = "ty" then readOnce fields.type.isSome key fun value ↦
          (type inner h value).map (·.map fun t ↦ { fields with type := some t })
        else if key = "name" then readOnce fields.name.isSome key fun value ↦
          (readNullable readText value).map (·.map fun name ↦ { fields with name := some name })
        else if key = "rest" then readOnce fields.rest.isSome key fun value ↦
          (readBool value).map (·.map fun rest ↦ { fields with rest := some rest })
        else readUnknown fields
      let fields ← readMembers member {} true input
      let type ← required "ty" fields.value.type fields
      .ok (fields.map fun fields ↦ ⟨type, fields.name.getD none, fields.rest.getD false⟩))

structure MemberFields where
  name : Option String := none
  type : Option TypeExpr := none

def readMemberJson : JsonReader Member :=
  readRecord "ObjectMember" levels
    (fun inner h input ↦ do
      let expected := "struct ObjectMember with 2 elements"
      let name ← readOrderedRequired 0 expected readText input
      let type ← readOrderedRequired 1 expected (type inner h) name.rest
      let close ← readArrayEnd type.rest
      .ok ⟨⟨name.value, type.value⟩, close.rest,
        Nat.lt_trans close.shorter (Nat.lt_trans type.shorter name.shorter)⟩)
    (fun inner h input ↦ do
      let member (fields : MemberFields) (key : String) : JsonReader MemberFields :=
        if key = "name" then readOnce fields.name.isSome key fun value ↦
          (readText value).map (·.map fun name ↦ { fields with name := some name })
        else if key = "ty" then readOnce fields.type.isSome key fun value ↦
          (type inner h value).map (·.map fun t ↦ { fields with type := some t })
        else readUnknown fields
      let fields ← readMembers member {} true input
      let name ← required "name" fields.value.name fields
      let type ← required "ty" fields.value.type fields
      .ok (fields.map fun _ ↦ ⟨name, type⟩))

end

structure FunctionFields where
  params : Option (List Param) := none
  result : Option (Option TypeExpr) := none

def readFunctionJson {levels : Nat}
    (type : (inner : Nat) → inner < levels → JsonReader TypeExpr) : JsonReader TypeExpr :=
  readRecord "FunctionType" levels
    (fun inner h input ↦ do
      let params ← readOrderedRequired 0 "struct FunctionType with 2 elements"
        (readArray inner fun item hitem ↦
          readParamJson fun l hl ↦ type l (Nat.lt_trans hl (Nat.lt_trans hitem h))) input
      let result ← readOrderedField false (readNullable (type inner h)) params.rest
      let close ← readArrayEnd result.rest
      .ok ⟨.function params.value (result.value.getD none), close.rest, by
        have h₁ := params.shorter
        have h₂ := result.shorter
        have h₃ := close.shorter
        omega⟩)
    (fun inner h input ↦ do
      let member (fields : FunctionFields) (key : String) : JsonReader FunctionFields :=
        if key = "params" then readOnce fields.params.isSome key fun value ↦
          (readArray inner (fun item hitem ↦
            readParamJson fun l hl ↦ type l (Nat.lt_trans hl (Nat.lt_trans hitem h))) value).map
            (·.map fun params ↦ { fields with params := some params })
        else if key = "return_type" then readOnce fields.result.isSome key fun value ↦
          (readNullable (type inner h) value).map
            (·.map fun result ↦ { fields with result := some result })
        else readUnknown fields
      let fields ← readMembers member {} true input
      let params ← required "params" fields.value.params fields
      .ok (fields.map fun fields ↦ .function params (fields.result.getD none)))

/-! ## Types -/

/-- Reads a type inside the given number of levels. -/
def readTypeJson (levels : Nat) : JsonReader TypeExpr := afterSpace fun input ↦
  match input with
  | [] => .error (.before .endInValue [])
  | '"' :: rest => do
    let variant ← readVariantName rest
    if variant.value = .any then .ok ((variant.map fun _ ↦ .any).within (length_le_behind rest))
    else .error (.before (.invalidType "unit variant" "newtype variant") variant.rest)
  | '{' :: rest => match levels with
    | 0 => .error (.inside .tooDeep input)
    | inner + 1 => do
      let variant ← readVariantKey rest
      let colon ← readColon variant.rest
      let content ← (match variant.value with
        | .any => fun value ↦ (readNull value).map (·.map fun _ ↦ .any)
        | .entity => fun value ↦ (readText value).map (·.map .entity)
        | .nullable => fun value ↦ (readTypeJson inner value).map (·.map .nullable)
        | .union => fun value ↦
          (readArray inner (fun item _ ↦ readTypeJson item) value).map (·.map .union)
        | .function => readFunctionJson fun l (_ : l < inner) ↦ readTypeJson l
        | .array => fun value ↦ (readTypeJson inner value).map (·.map .array)
        | .object => fun value ↦
          (readArray inner (fun _ hitem ↦
            readMemberJson fun l hl ↦
              have := Nat.lt_trans hl hitem
              readTypeJson l) value).map (·.map .object)
        | .text => fun value ↦ (readText value).map (·.map .text)
        | .number => fun value ↦ (readText value).map (·.map .number) : JsonReader TypeExpr)
        colon.rest
      let close ← readVariantEnd content.rest
      .ok ⟨content.value, close.rest, Nat.lt_succ_of_lt (Nat.lt_trans close.shorter
        (Nat.lt_trans content.shorter (Nat.lt_trans colon.shorter variant.shorter)))⟩
  | rest => .error (.inside .expectedValue rest)
termination_by levels
decreasing_by
  all_goals first
  | exact Nat.lt_succ_self _
  | exact Nat.lt_succ_of_lt ‹_›

/-- The type that a JSON text describes. -/
def TypeExpr.ofJson (text : String) : Except JsonError TypeExpr :=
  readWhole (readTypeJson maxLevels) text

end TypeNotation
