import TypeNotation.Log
import TypeNotation.NameMap.Basic
import TypeNotation.TypeScript.Layout

/-!
# Rendering with a name map

Turning fragments into text looks every entity name up once; what a replacement says is never looked
up again. The names that have an origin are collected in the order in which they are written,
grouped by origin, each once; and each time a name is collected that was not there yet, this is
logged.
-/

namespace TypeNotation

/-! ## Imports -/

/-- Imported names by origin, both in order of first use. -/
abbrev Imports := List (String × List String)

namespace Imports

def contains (imports : Imports) (origin name : String) : Bool :=
  imports.any fun (key, names) ↦ key = origin && names.contains name

/-- Adds a name under an origin, unless it is there. -/
def add (origin name : String) : Imports → Imports
  | [] => [(origin, [name])]
  | (key, names) :: imports =>
    if key = origin then
      (key, if names.contains name then names else names ++ [name]) :: imports
    else (key, names) :: add origin name imports

/-- The lines that import the names, one for each origin. -/
def lines (imports : Imports) : List String :=
  imports.map fun (origin, names) ↦
    "import type \x7b " ++ ", ".intercalate names ++ " \x7d from \"" ++ origin ++ "\";"

end Imports

/-- The first use of an imported name. -/
structure ImportUse where
  /-- The name that is written and imported. -/
  name : String
  origin : String
  /-- The entity name that it stands for. -/
  raw : String
  deriving DecidableEq, Repr, Inhabited

/-- The part of the program that renders types, as it is named in log records. -/
def renderTarget : String := "annotype::render"

/-- The first use of an imported name, in words. -/
def ImportUse.record (use : ImportUse) : LogRecord :=
  ⟨.debug, renderTarget,
    "importing " ++ use.name ++ " from " ++ use.origin ++ " for " ++ use.raw⟩

/-! ## Rendering -/

structure Rendering where
  text : String
  imports : Imports
  /-- The first uses of the imported names, in order. -/
  uses : List ImportUse
  deriving DecidableEq, Repr, Inhabited

namespace NameMap

/-- The name to write for an entity name. -/
def written (map : NameMap) (raw : String) : String :=
  match map.resolve raw with
  | some replacement => replacement.name
  | none => raw

def fragmentChars (map : NameMap) : Fragment → List Char
  | .literal text => text
  | .name raw => (map.written raw).toList

/-- What a fragment adds to the imports and their first uses. -/
def collectFragment (map : NameMap) (collected : Imports × List ImportUse) :
    Fragment → Imports × List ImportUse
  | .literal _ => collected
  | .name raw =>
    match map.resolve raw with
    | some ⟨name, some origin⟩ =>
      (collected.1.add origin name,
        if collected.1.contains origin name then collected.2
        else collected.2 ++ [⟨name, origin, raw⟩])
    | _ => collected

def renderFragments (map : NameMap) (fragments : List Fragment) : Rendering :=
  let (imports, uses) := fragments.foldl map.collectFragment ([], [])
  ⟨String.ofList (fragments.flatMap map.fragmentChars), imports, uses⟩

def render (map : NameMap) (type : TypeExpr) : Rendering := map.renderFragments type.fragments

/-- The rendering of a type as the declaration of an alias. -/
def renderAlias (map : NameMap) (aliasName : String) (type : TypeExpr) : Rendering :=
  map.renderFragments
    (.literal ("export type " ++ aliasName ++ " = ").toList :: type.fragments ++ [.literal [';']])

end NameMap

def Rendering.log (rendering : Rendering) : List LogRecord := rendering.uses.map (·.record)

end TypeNotation
