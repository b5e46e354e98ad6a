import TypeNotation.Json.Value
import TypeNotation.Text.Hex

/-!
# Writing JSON

A value has a compact text, without any white space, and an indented one, in which every item and
member stands on a line of its own; an empty array or object is written the same way in both. In
strings only the quote, the backslash and the characters below the space are escaped.
-/

namespace TypeNotation

/-! ## Strings -/

/-- One character of a JSON string. -/
def jsonChar (c : Char) : List Char :=
  if c = '"' then ['\\', '"']
  else if c = '\\' then ['\\', '\\']
  else if c = '\x08' then ['\\', 'b']
  else if c = '\x0c' then ['\\', 'f']
  else if c = '\n' then ['\\', 'n']
  else if c = '\r' then ['\\', 'r']
  else if c = '\t' then ['\\', 't']
  else if c < ' ' then '\\' :: 'u' :: Hex.writePadded 4 c.toNat
  else [c]

def jsonString (value : List Char) : List Char :=
  '"' :: value.flatMap jsonChar ++ ['"']

/-! ## Compact text -/

namespace JsonValue

mutual

/-- The characters of a value without white space. -/
def compactChars : JsonValue → List Char
  | null => "null".toList
  | bool value => (if value then "true" else "false").toList
  | number text => text.toList
  | string value => jsonString value.toList
  | array items => '[' :: [','].intercalate (compactItems items) ++ [']']
  | object members => '{' :: [','].intercalate (compactMembers members) ++ ['}']

def compactItems : List JsonValue → List (List Char)
  | [] => []
  | item :: items => item.compactChars :: compactItems items

def compactMembers : List (String × JsonValue) → List (List Char)
  | [] => []
  | (key, value) :: members =>
    (jsonString key.toList ++ ':' :: value.compactChars) :: compactMembers members

end

/-! ## Indented text -/

/-- A line break and the indentation of a line at the given depth. -/
def lineBreak (depth : Nat) : List Char := '\n' :: List.replicate (2 * depth) ' '

/-- Entries between brackets, each on a line of its own at the given depth. -/
def block (depth : Nat) (opening closing : Char) : List (List Char) → List Char
  | [] => [opening, closing]
  | entries =>
    opening :: lineBreak (depth + 1) ++ (',' :: lineBreak (depth + 1)).intercalate entries ++
      lineBreak depth ++ [closing]

mutual

/-- The characters of a value that begins on a line at the given depth. -/
def indentedChars (depth : Nat) : JsonValue → List Char
  | null => "null".toList
  | bool value => (if value then "true" else "false").toList
  | number text => text.toList
  | string value => jsonString value.toList
  | array items => block depth '[' ']' (indentedItems (depth + 1) items)
  | object members => block depth '{' '}' (indentedMembers (depth + 1) members)

def indentedItems (depth : Nat) : List JsonValue → List (List Char)
  | [] => []
  | item :: items => item.indentedChars depth :: indentedItems depth items

def indentedMembers (depth : Nat) : List (String × JsonValue) → List (List Char)
  | [] => []
  | (key, value) :: members =>
    (jsonString key.toList ++ ':' :: ' ' :: value.indentedChars depth) ::
      indentedMembers depth members

end

/-- The text of a value without white space. -/
def compact (value : JsonValue) : String := String.ofList value.compactChars

/-- The text of a value with every item and member on a line of its own. -/
def indented (value : JsonValue) : String := String.ofList (value.indentedChars 0)

end JsonValue

end TypeNotation
