import TypeNotation.Json.Shape

/-!
# Any JSON value

A value of no particular shape is read into a `JsonValue`. Each array and object opens a level, and
the recursion is on the levels that are left.
-/

namespace TypeNotation

/-- Reads a word whose first letter has been recognised. -/
private def word (letters : List Char) (value : JsonValue) (rest : List Char) :
    Except JsonError (Taken JsonValue (rest.length + 1)) :=
  (readLetters letters rest).map fun left ↦ ⟨value, left.1, length_lt_of_letters left⟩

/-- Reads a value inside the given number of levels. -/
def readAnyValue (levels : Nat) : JsonReader JsonValue := afterSpace fun input ↦
  match input with
  | [] => .error (.before .endInValue [])
  | 'n' :: rest => word ['u', 'l', 'l'] .null rest
  | 't' :: rest => word ['r', 'u', 'e'] (.bool true) rest
  | 'f' :: rest => word ['a', 'l', 's', 'e'] (.bool false) rest
  | '"' :: rest => (readStringBody rest).map fun taken ↦
      (taken.map fun value ↦ .string (String.ofList value)).within (length_le_behind rest)
  | '-' :: rest => (readNumber true rest).map fun taken ↦
      (taken.map fun _ ↦
        .number (String.ofList (input.take (input.length - taken.rest.length)))).within
        (length_le_behind rest)
  | '[' :: rest => match levels with
    | 0 => .error (.inside .tooDeep input)
    | inner + 1 => (readArrayItems (readAnyValue inner) true rest).map fun taken ↦
        (taken.map .array).within (length_le_behind rest)
  | '{' :: rest => match levels with
    | 0 => .error (.inside .tooDeep input)
    | inner + 1 =>
      (readMembers (fun members key ↦ readField fun value ↦
          (readAnyValue inner value).map (·.map fun v ↦ members ++ [(key, v)]))
        [] true rest).map fun taken ↦ (taken.map .object).within (length_le_behind rest)
  | c :: rest =>
    if c.isDigit then (readNumber false (c :: rest)).map fun taken ↦
      taken.map fun _ ↦
        .number (String.ofList (input.take (input.length - taken.rest.length)))
    else .error (.inside .expectedValue (c :: rest))

end TypeNotation
