/-!
# JSON values

Objects keep their members in order and may repeat a key. A number is kept as it is written, since
nothing here calculates with it.
-/

namespace TypeNotation

inductive JsonValue
  | null
  | bool (value : Bool)
  | number (text : String)
  | string (value : String)
  | array (items : List JsonValue)
  | object (members : List (String × JsonValue))

instance : Inhabited JsonValue := ⟨.null⟩

end TypeNotation
