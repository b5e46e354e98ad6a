import TypeNotation.Json.AnyValue
import TypeNotation.Json.Writer
import TypeNotation.NameMap.Basic

/-!
# Name maps as JSON

A map is an object with a member for each entry, in order. An entry that only renames is a string,
any other an object with the parts that are present. Reading is the same backwards, except that
unknown parts are ignored and a name that comes again overwrites its entry.

The value of an entry is read as a whole before its shape is considered, so a fault in it comes
before any complaint about its shape; and such a complaint is placed behind the map, where the
closing brace would be.
-/

namespace TypeNotation

/-! ## Writing -/

/-- An optional member with a string. -/
def optionalMember (key : String) (value : Option String) : List (String × JsonValue) :=
  value.toList.map fun text ↦ (key, .string text)

def NameMapping.toJson : NameMapping → JsonValue
  | rename name => .string name
  | detailed name origin => .object (optionalMember "name" name ++ optionalMember "from" origin)

def NameMap.toJson (map : NameMap) : JsonValue :=
  .object (map.entries.map fun (raw, mapping) ↦ (raw, mapping.toJson))

/-! ## Reading -/

/-- The parts of an entry read so far; a part that is `null` has been read. -/
structure MappingParts where
  name : Option (Option String) := none
  origin : Option (Option String) := none

/-- A string, or nothing for `null`. -/
def JsonValue.nullableText? : JsonValue → Option (Option String)
  | null => some none
  | string value => some (some value)
  | _ => none

/-- One member of an entry. No part may come twice. -/
def MappingParts.add? (parts : MappingParts) (key : String) (value : JsonValue) :
    Option MappingParts :=
  if key = "name" then
    if parts.name.isSome then none
    else value.nullableText?.map fun text ↦ { parts with name := some text }
  else if key = "from" then
    if parts.origin.isSome then none
    else value.nullableText?.map fun text ↦ { parts with origin := some text }
  else some parts

def MappingParts.addAll? (parts : MappingParts) : List (String × JsonValue) → Option MappingParts
  | [] => some parts
  | (key, value) :: members => (parts.add? key value).bind (·.addAll? members)

/-- The entry that a JSON value describes. -/
def NameMapping.ofJson? : JsonValue → Option NameMapping
  | .string name => some (rename name)
  | .object members =>
    (MappingParts.addAll? {} members).map fun parts ↦
      detailed (parts.name.getD none) (parts.origin.getD none)
  | _ => none

/-- The error for an entry of a wrong shape, given what is left behind it. -/
def wrongEntry (rest : List Char) : JsonError :=
  match skipSpace rest with
  | '}' :: behind => .before (.noVariantMatches "NameMapping") behind
  | behind => .before (.noVariantMatches "NameMapping") behind

/-- Reads an entry behind its name and adds it to the map. -/
def readEntry (levels : Nat) (map : NameMap) (raw : String) : JsonReader NameMap := fun input ↦ do
  let value ← readField (readAnyValue levels) input
  match NameMapping.ofJson? value.value with
  | some mapping => .ok (value.map fun _ ↦ map.put raw mapping)
  | none => .error (wrongEntry value.rest)

/-- Reads a map inside the given number of levels. -/
def readNameMap (levels : Nat) : JsonReader NameMap := afterSpace fun input ↦
  match input with
  | '{' :: rest => match levels with
    | 0 => .error (.inside .tooDeep input)
    | inner + 1 =>
      (readMembers (readEntry inner) .empty true rest).map (·.within (length_le_behind rest))
  | input => .error (wrongKind "a map" input)

/-- The map that a JSON text describes. -/
def NameMap.ofJson (text : String) : Except JsonError NameMap :=
  readWhole (readNameMap maxLevels) text

/-! ## Histories -/

/-- A change of a name map. -/
inductive NameMapChange
  /-- Have the map described by a JSON text in place of this one. -/
  | load (json : String)
  | rename (raw name : String)
  | importing (raw : String) (name : Option String) (origin : String)
  deriving Repr

/-- The map after a change, unless a text was to be loaded that describes no map. -/
def NameMap.apply (map : NameMap) : NameMapChange → Except JsonError NameMap
  | .load json => NameMap.ofJson json
  | .rename raw name => .ok (map.rename raw name)
  | .importing raw name origin => .ok (map.importing raw name origin)

/-- The map after several changes. Those that fail leave it as it was. -/
def NameMap.applyAll (map : NameMap) (changes : List NameMapChange) : NameMap :=
  changes.foldl (fun map change ↦ (map.apply change).toOption.getD map) map

end TypeNotation
