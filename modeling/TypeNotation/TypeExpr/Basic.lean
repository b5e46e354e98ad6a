/-!
# Type expressions

What an annotation says. The tree keeps names, string values and number texts as they are and puts
no condition on them, because trees are also built directly and read from JSON, where a name may be
any text. Which trees an annotation can denote is a property of trees, not of their type.

A signature lists its parameters in order; whether a parameter is named and whether it takes the
rest of the arguments are independent of each other.
-/

namespace TypeNotation

mutual

inductive TypeExpr
  /-- Every value. -/
  | any
  /-- A name, with dots between its parts. -/
  | entity (name : String)
  /-- A type or nothing. -/
  | nullable (inner : TypeExpr)
  /-- One of several types. -/
  | union (members : List TypeExpr)
  /-- A function; no result is written when none is given. -/
  | function (params : List Param) (result : Option TypeExpr)
  /-- A sequence. -/
  | array (element : TypeExpr)
  /-- A record. -/
  | object (members : List Member)
  /-- A single string. -/
  | text (value : String)
  /-- A single number, as it was written. -/
  | number (text : String)

/-- A parameter of a function. -/
structure Param where
  type : TypeExpr
  name : Option String
  /-- Whether the parameter takes all further arguments, each of its type. -/
  rest : Bool

structure Member where
  name : String
  type : TypeExpr

end

instance : Inhabited TypeExpr := ⟨.any⟩

namespace Param

/-- A parameter known by its position only. -/
def unnamed (type : TypeExpr) : Param := ⟨type, none, false⟩

def named (name : String) (type : TypeExpr) : Param := ⟨type, some name, false⟩

/-- A named parameter that takes all further arguments. -/
def variadic (name : String) (type : TypeExpr) : Param := ⟨type, some name, true⟩

end Param

def TypeExpr.kind : TypeExpr → String
  | any => "any"
  | entity _ => "entity"
  | nullable _ => "nullable"
  | union _ => "union"
  | function _ _ => "function"
  | array _ => "array"
  | object _ => "object"
  | text _ => "string literal"
  | number _ => "number literal"

end TypeNotation
