import TypeNotation.Text.Extending
import TypeNotation.Text.Graphic
import TypeNotation.Text.Hex
import TypeNotation.Text.Ignorable

/-!
# Quoted text

Text shown inside messages, listings and outlines stands between double quotes on one line, with
every character visible: a quote, a backslash and the four common controls have a backslash form,
and any other character that is shapeless, not meant to be seen or would attach to its neighbour is
spelled by number. Everything else, a single quote included, stands for itself.
-/

namespace TypeNotation

/-- Whether the character can be read where it stands. The halfwidth voicing marks have a place of
their own, although they modify the character in front of them. -/
def isReadable (c : Char) : Bool :=
  isGraphic c && !isIgnorable c && (!isExtending c || c = '\uff9e' || c = '\uff9f')

def quotedChar (c : Char) : List Char :=
  if c = '"' then ['\\', '"']
  else if c = '\\' then ['\\', '\\']
  else if c = '\x00' then ['\\', '0']
  else if c = '\t' then ['\\', 't']
  else if c = '\r' then ['\\', 'r']
  else if c = '\n' then ['\\', 'n']
  else if isReadable c then [c]
  else ['\\', 'u', '{'] ++ Hex.write c.toNat ++ ['}']

def quotedChars (text : List Char) : List Char :=
  '"' :: text.flatMap quotedChar ++ ['"']

/-- Text between double quotes, every character visible. -/
def quoted (text : String) : String :=
  String.ofList (quotedChars text.toList)

@[simp] theorem toList_quoted (text : String) : (quoted text).toList = quotedChars text.toList := by
  simp [quoted]

end TypeNotation
