/-!
# Places in a text

Every place in an annotation is a count of UTF-8 bytes from its start, so that a reported place
means the same to any tool that reads the text as bytes. The text itself is handled as a list of
characters; `utf8Length` is the bridge, and it is additive along `++`.
-/

namespace TypeNotation

/-! ## Byte lengths -/

-- The sum starts from the numeral zero, whatever other zeros of `Nat` are in scope.
attribute [local instance (high)] Zero.ofOfNat0

/-- The number of bytes that a text occupies in UTF-8. -/
def utf8Length (text : List Char) : Nat :=
  (text.map Char.utf8Size).sum

@[simp] theorem utf8Length_nil : utf8Length [] = 0 := rfl

@[simp] theorem utf8Length_cons (c : Char) (text : List Char) :
    utf8Length (c :: text) = c.utf8Size + utf8Length text := rfl

@[simp] theorem utf8Length_append (a b : List Char) :
    utf8Length (a ++ b) = utf8Length a + utf8Length b := by
  simp [utf8Length]

theorem utf8Length_take_add_drop (n : Nat) (text : List Char) :
    utf8Length (text.take n) + utf8Length (text.drop n) = utf8Length text := by
  rw [← utf8Length_append, List.take_append_drop]

theorem utf8Length_toList (s : String) : utf8Length s.toList = s.utf8ByteSize := by
  have key (text : List Char) : utf8Length text = (String.ofList text).utf8ByteSize := by
    induction text with
    | nil => rfl
    | cons c text ih =>
      rw [utf8Length_cons, ih, ← String.utf8ByteSize_singleton, ← String.utf8ByteSize_append,
        String.singleton_eq_ofList, ← String.ofList_append, List.singleton_append]
  rw [key, String.ofList_toList]

/-! ## Spans -/

/-- A stretch of bytes, from `start` up to but not including `stop`. -/
structure Span where
  start : Nat
  stop : Nat
  deriving DecidableEq, Repr, Inhabited

/-- The same stretch in a text that has `offset` more bytes in front. -/
def Span.shift (offset : Nat) (span : Span) : Span :=
  ⟨span.start + offset, span.stop + offset⟩

end TypeNotation
