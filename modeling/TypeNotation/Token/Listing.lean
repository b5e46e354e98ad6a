import TypeNotation.Token.Cursor

/-!
# Token listings

A listing has one line for each token: its span, with the two numbers aligned around two dots, and
the token as messages show it.
-/

namespace TypeNotation

/-- The columns that are kept for each number of a span. -/
def numberColumns : Nat := 3

/-- Text with spaces in front, at least `width` characters wide. -/
def padLeft (width : Nat) (text : String) : String :=
  String.ofList (List.replicate (width - text.length) ' ') ++ text

/-- Text with spaces behind, at least `width` characters wide. -/
def padRight (width : Nat) (text : String) : String :=
  text ++ String.ofList (List.replicate (width - text.length) ' ')

def Located.line (located : Located) : String :=
  padLeft numberColumns (toString located.span.start) ++ ".." ++
    padRight numberColumns (toString located.span.stop) ++ " " ++ located.token.describe

def listing (tokens : List Located) : String :=
  "\n".intercalate (tokens.map Located.line)

end TypeNotation
