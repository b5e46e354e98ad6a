import TypeNotation.Text.Quoted
import TypeNotation.TypeExpr.Basic

/-!
# Outlines

An outline shows how a type expression is built: every node by the name of its kind, with all its
parts, absent ones included. The short form stands on one line; the spread form puts every part on a
line of its own, indented by depth and followed by a comma.
-/

namespace TypeNotation

/-! ## Outlines in general -/

/-- What the parts of a node stand between. -/
inductive Bracket
  | paren
  | square
  | brace
  deriving DecidableEq, Repr

/-- A named node with labelled parts, or a text that has none. A label may be empty. -/
inductive Outline
  | leaf (text : String)
  | node (head : String) (bracket : Bracket) (parts : List (String × Outline))

namespace Outline

/-- A node whose parts have no labels. -/
def plain (head : String) (bracket : Bracket) (parts : List Outline) : Outline :=
  node head bracket (parts.map fun part ↦ ("", part))

/-- A node with named parts. -/
def fields (head : String) (parts : List (String × Outline)) : Outline :=
  node (head ++ " ") .brace (parts.map fun (label, part) ↦ (label ++ ": ", part))

/-- A part that may be absent. -/
def optional : Option Outline → Outline
  | none => leaf "None"
  | some part => plain "Some" .paren [part]

/-- A text in quotes. -/
def text (value : String) : Outline := leaf (quoted value)

/-- How the parts of a node begin on one line. -/
def shortOpen : Bracket → String
  | .paren => "("
  | .square => "["
  | .brace => "\x7b "

/-- How the parts of a node end on one line. -/
def shortClose : Bracket → String
  | .paren => ")"
  | .square => "]"
  | .brace => " \x7d"

/-- How the parts of a node begin when they stand on lines of their own. -/
def spreadOpen : Bracket → String
  | .paren => "("
  | .square => "["
  | .brace => "\x7b"

/-- How the parts of a node end when they stand on lines of their own. -/
def spreadClose : Bracket → String
  | .paren => ")"
  | .square => "]"
  | .brace => "\x7d"

/-- Spaces in front of a part at the given depth. -/
def indent (depth : Nat) : String := String.ofList (List.replicate (4 * depth) ' ')

mutual

def short : Outline → String
  | leaf text => text
  | node head bracket parts =>
    head ++ shortOpen bracket ++ ", ".intercalate (shortParts parts) ++ shortClose bracket

/-- The parts of a node with their labels. -/
def shortParts : List (String × Outline) → List String
  | [] => []
  | (label, part) :: parts => (label ++ part.short) :: shortParts parts

end

mutual

/-- The outline on several lines, for a node that stands at the given depth. -/
def spreadAt (depth : Nat) : Outline → String
  | leaf text => text
  | node head bracket [] => head ++ spreadOpen bracket ++ spreadClose bracket
  | node head bracket (part :: parts) =>
    head ++ spreadOpen bracket ++ "\n" ++ spreadParts (depth + 1) (part :: parts) ++
      indent depth ++ spreadClose bracket

/-- The parts of a node, each on lines of its own. -/
def spreadParts (depth : Nat) : List (String × Outline) → String
  | [] => ""
  | (label, part) :: parts =>
    indent depth ++ label ++ part.spreadAt depth ++ ",\n" ++ spreadParts depth parts

end

/-- The outline on several lines. -/
def spread (outline : Outline) : String := outline.spreadAt 0

end Outline

/-! ## Outlines of types -/

mutual

def TypeExpr.outline : TypeExpr → Outline
  | .any => .leaf "Any"
  | .entity name => .plain "Entity" .paren [.text name]
  | .nullable inner => .plain "Nullable" .paren [inner.outline]
  | .union members => .plain "Union" .paren [.plain "" .square (outlineTypes members)]
  | .function params result => .plain "Function" .paren [.fields "FunctionType"
      [("params", .plain "" .square (outlineParams params)),
        ("return_type", .optional (outlineResult result))]]
  | .array element => .plain "Array" .paren [element.outline]
  | .object members => .plain "Object" .paren [.plain "" .square (outlineMembers members)]
  | .text value => .plain "StringLiteral" .paren [.text value]
  | .number text => .plain "NumberLiteral" .paren [.text text]

def Param.outline : Param → Outline
  | ⟨type, name, rest⟩ => .fields "FunctionParam"
      [("ty", type.outline), ("name", .optional (name.map .text)),
        ("rest", .leaf (if rest then "true" else "false"))]

def Member.outline : Member → Outline
  | ⟨name, type⟩ => .fields "ObjectMember" [("name", .text name), ("ty", type.outline)]

def outlineTypes : List TypeExpr → List Outline
  | [] => []
  | type :: types => type.outline :: outlineTypes types

def outlineParams : List Param → List Outline
  | [] => []
  | param :: params => param.outline :: outlineParams params

def outlineMembers : List Member → List Outline
  | [] => []
  | member :: members => member.outline :: outlineMembers members

def outlineResult : Option TypeExpr → Option Outline
  | none => none
  | some type => some type.outline

end

end TypeNotation
