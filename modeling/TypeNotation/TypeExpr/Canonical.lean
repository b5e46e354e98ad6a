import TypeNotation.TypeExpr.Basic

/-!
# Canonical form

Every type expression has one text in the notation: a star for any type, a comma and a space between
the items of a list, double quotes around strings, and the non-ASCII arrow. In a string only the
quote, the backslash and four control characters are escaped, line breaks among them; everything
else stands for itself.
-/

namespace TypeNotation

/-! ## Strings -/

/-- One character of a string in canonical form. -/
def canonicalChar (c : Char) : List Char :=
  if c = '"' then ['\\', '"']
  else if c = '\\' then ['\\', '\\']
  else if c = '\n' then ['\\', 'n']
  else if c = '\r' then ['\\', 'r']
  else if c = '\t' then ['\\', 't']
  else if c = '\x00' then ['\\', '0']
  else [c]

def canonicalString (value : List Char) : List Char :=
  '"' :: value.flatMap canonicalChar ++ ['"']

/-- Items with a comma and a space between them. -/
def listed (items : List (List Char)) : List Char := [',', ' '].intercalate items

/-! ## Types -/

mutual

/-- The characters of the canonical form of a type. -/
def TypeExpr.canonicalChars : TypeExpr → List Char
  | .any => ['*']
  | .entity name => name.toList
  | .nullable inner => '?' :: inner.canonicalChars
  | .union members => "union<".toList ++ listed (canonicalTypes members) ++ ['>']
  | .function params result =>
    '(' :: listed (canonicalParams params) ++ ')' :: canonicalResult result
  | .array element => '[' :: element.canonicalChars ++ [']']
  | .object members => '{' :: listed (canonicalMembers members) ++ ['}']
  | .text value => canonicalString value.toList
  | .number text => text.toList

def Param.canonicalChars : Param → List Char
  | ⟨type, name, rest⟩ =>
    (if rest then ['.', '.', '.'] else []) ++
      (match name with
        | some name => name.toList ++ [':', ' ']
        | none => []) ++
      type.canonicalChars

def Member.canonicalChars : Member → List Char
  | ⟨name, type⟩ => name.toList ++ ':' :: ' ' :: type.canonicalChars

def canonicalTypes : List TypeExpr → List (List Char)
  | [] => []
  | type :: types => type.canonicalChars :: canonicalTypes types

def canonicalParams : List Param → List (List Char)
  | [] => []
  | param :: params => param.canonicalChars :: canonicalParams params

def canonicalMembers : List Member → List (List Char)
  | [] => []
  | member :: members => member.canonicalChars :: canonicalMembers members

/-- An arrow and the canonical form of a result, if there is one. -/
def canonicalResult : Option TypeExpr → List Char
  | none => []
  | some type => ' ' :: '→' :: ' ' :: type.canonicalChars

end

/-- The canonical form of a type. -/
def TypeExpr.canonical (type : TypeExpr) : String := String.ofList type.canonicalChars

instance : ToString TypeExpr := ⟨TypeExpr.canonical⟩

@[simp] theorem TypeExpr.toList_canonical (type : TypeExpr) :
    type.canonical.toList = type.canonicalChars := by
  simp [canonical]

theorem canonicalTypes_eq_map (types : List TypeExpr) :
    canonicalTypes types = types.map TypeExpr.canonicalChars := by
  induction types with
  | nil => rfl
  | cons type types ih => simp [canonicalTypes, ih]

theorem canonicalParams_eq_map (params : List Param) :
    canonicalParams params = params.map Param.canonicalChars := by
  induction params with
  | nil => rfl
  | cons param params ih => simp [canonicalParams, ih]

theorem canonicalMembers_eq_map (members : List Member) :
    canonicalMembers members = members.map Member.canonicalChars := by
  induction members with
  | nil => rfl
  | cons member members ih => simp [canonicalMembers, ih]

/-! The forms with lists in them, item by item. -/

theorem TypeExpr.canonicalChars_union (members : List TypeExpr) :
    (union members).canonicalChars =
      "union<".toList ++ listed (members.map canonicalChars) ++ ['>'] := by
  rw [← canonicalTypes_eq_map]
  rfl

theorem TypeExpr.canonicalChars_function (params : List Param) (result : Option TypeExpr) :
    (function params result).canonicalChars =
      '(' :: listed (params.map Param.canonicalChars) ++ ')' :: canonicalResult result := by
  rw [← canonicalParams_eq_map]
  rfl

theorem TypeExpr.canonicalChars_object (members : List Member) :
    (object members).canonicalChars =
      '{' :: listed (members.map Member.canonicalChars) ++ ['}'] := by
  rw [← canonicalMembers_eq_map]
  rfl

end TypeNotation
