import TypeNotation.Json.Writer
import TypeNotation.TypeExpr.Basic

/-!
# Type expressions as JSON

A type is an object with one member, whose key names the kind of the type; only the type of every
value, which has no parts, is a string. Parts that are absent, and a parameter's `rest` when it is
false, are left out.
-/

namespace TypeNotation

mutual

/-- The JSON value of a type. -/
def TypeExpr.toJson : TypeExpr → JsonValue
  | .any => .string "Any"
  | .entity name => .object [("Entity", .string name)]
  | .nullable inner => .object [("Nullable", inner.toJson)]
  | .union members => .object [("Union", .array (jsonTypes members))]
  | .function params result => .object [("Function",
      .object (("params", .array (jsonParams params)) :: jsonResult result))]
  | .array element => .object [("Array", element.toJson)]
  | .object members => .object [("Object", .array (jsonMembers members))]
  | .text value => .object [("StringLiteral", .string value)]
  | .number text => .object [("NumberLiteral", .string text)]

def Param.toJson : Param → JsonValue
  | ⟨type, name, rest⟩ => .object (("ty", type.toJson) ::
      (match name with
        | some name => [("name", .string name)]
        | none => []) ++
      if rest then [("rest", .bool true)] else [])

def Member.toJson : Member → JsonValue
  | ⟨name, type⟩ => .object [("name", .string name), ("ty", type.toJson)]

def jsonTypes : List TypeExpr → List JsonValue
  | [] => []
  | type :: types => type.toJson :: jsonTypes types

def jsonParams : List Param → List JsonValue
  | [] => []
  | param :: params => param.toJson :: jsonParams params

def jsonMembers : List Member → List JsonValue
  | [] => []
  | member :: members => member.toJson :: jsonMembers members

/-- The JSON member for a result, if there is one. -/
def jsonResult : Option TypeExpr → List (String × JsonValue)
  | none => []
  | some type => [("return_type", type.toJson)]

end

end TypeNotation
