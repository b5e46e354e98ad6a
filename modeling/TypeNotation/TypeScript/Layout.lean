import TypeNotation.Json.Writer
import TypeNotation.TypeExpr.Basic

/-!
# Types in TypeScript

A type expression is laid out as a sequence of fragments: punctuation that is the same whatever the
names mean, and entity names, which are looked up only when the fragments are turned into text. So
the shape of the text never depends on a name map.

Two places need parentheses. An element type in front of `[]` is wrapped if it is nullable, a
function or a union with several members; an alternative beside a `|` is wrapped only if it is a
function, since unions and nullable types can be written one after the other. A union with one
member is laid out as that member.
-/

namespace TypeNotation

/-- A piece of a laid out type. -/
inductive Fragment
  /-- Characters that are written as they are. -/
  | literal (text : List Char)
  /-- An entity name, to be looked up. -/
  | name (raw : String)
  deriving DecidableEq, Repr, Inhabited

/-! ## Parentheses -/

/-- Whether the type has to be wrapped in front of `[]`. -/
def TypeExpr.needsParens : TypeExpr → Bool
  | .nullable _ | .function _ _ => true
  | .union members => 1 < members.length
  | _ => false

/-- Whether the type has to be wrapped as an alternative. -/
def TypeExpr.isFunction : TypeExpr → Bool
  | .function _ _ => true
  | _ => false

/-- Fragments in parentheses, if the condition holds. -/
def wrapIf (condition : Bool) (fragments : List Fragment) : List Fragment :=
  if condition then .literal ['('] :: fragments ++ [.literal [')']] else fragments

/-- Fragments of several items with the same text between them. -/
def separated (separator : String) (items : List (List Fragment)) : List Fragment :=
  [Fragment.literal separator.toList].intercalate items

/-! ## Types -/

/-- The name of the parameter at an index that has none of its own. -/
def positionalName (index : Nat) : String := "arg" ++ toString index

/-- The name that is written for a parameter at an index. -/
def Param.writtenName (index : Nat) (param : Param) : String :=
  param.name.getD (positionalName index)

mutual

/-- The fragments of a type. -/
def TypeExpr.fragments : TypeExpr → List Fragment
  | .any => [.literal "any".toList]
  | .entity name => [.name name]
  | .nullable inner =>
    wrapIf inner.isFunction inner.fragments ++ [.literal " | null".toList]
  | .union members => unionFragments members
  | .function params result =>
    .literal ['('] :: separated ", " (paramFragments 0 params) ++
      .literal ") => ".toList :: resultFragments result
  | .array element =>
    wrapIf element.needsParens element.fragments ++ [.literal "[]".toList]
  | .object [] => [.literal ['{', '}']]
  | .object (member :: members) =>
    .literal ['{', ' '] :: separated "; " (memberFragments (member :: members)) ++
      [.literal [' ', '}']]
  | .text value => [.literal (jsonString value.toList)]
  | .number text => [.literal text.toList]

/-- The fragments of a parameter at an index. A variadic parameter is an array of its type. -/
def Param.fragments (index : Nat) : Param → List Fragment
  | ⟨type, name, rest⟩ =>
    (if rest then [.literal "...".toList] else []) ++
      .literal (Param.writtenName index ⟨type, name, rest⟩).toList :: .literal ": ".toList ::
      if rest then wrapIf type.needsParens type.fragments ++ [.literal "[]".toList]
      else type.fragments

def Member.fragments : Member → List Fragment
  | ⟨name, type⟩ => .literal name.toList :: .literal ": ".toList :: type.fragments

def unionFragments : List TypeExpr → List Fragment
  | [] => [.literal "never".toList]
  | [single] => single.fragments
  | first :: second :: others =>
    wrapIf first.isFunction first.fragments ++
      (.literal " | ".toList :: wrapIf second.isFunction second.fragments) ++
      alternativeFragments others

/-- The fragments of further alternatives, each behind a bar. -/
def alternativeFragments : List TypeExpr → List Fragment
  | [] => []
  | type :: types =>
    .literal " | ".toList :: wrapIf type.isFunction type.fragments ++ alternativeFragments types

/-- The fragments of parameters, of which the first has the given index. -/
def paramFragments (index : Nat) : List Param → List (List Fragment)
  | [] => []
  | param :: params => param.fragments index :: paramFragments (index + 1) params

def memberFragments : List Member → List (List Fragment)
  | [] => []
  | member :: members => member.fragments :: memberFragments members

/-- The fragments of a result, which is nothing if none is given. -/
def resultFragments : Option TypeExpr → List Fragment
  | none => [.literal "void".toList]
  | some type => type.fragments

end

end TypeNotation
