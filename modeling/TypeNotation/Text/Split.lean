/-!
# Cutting text

A text cut at each place where a given character stands. There is one piece more than there are
such places, so pieces may be empty, and a text that ends with the character has an empty last
piece.
-/

namespace TypeNotation

/-- Cuts a text at each `mark`; the marks are left out. -/
def splitAtEach (mark : Char) : List Char → List (List Char)
  | [] => [[]]
  | c :: rest =>
    if c = mark then [] :: splitAtEach mark rest
    else match splitAtEach mark rest with
      | [] => [[c]]
      | piece :: pieces => (c :: piece) :: pieces

theorem splitAtEach_ne_nil (mark : Char) (text : List Char) : splitAtEach mark text ≠ [] := by
  cases text with
  | nil => simp [splitAtEach]
  | cons c rest =>
    simp only [splitAtEach]
    split
    · simp
    · split <;> simp

theorem splitAtEach_of_not_mem {mark : Char} {text : List Char} (h : mark ∉ text) :
    splitAtEach mark text = [text] := by
  induction text with
  | nil => rfl
  | cons c rest ih =>
    rw [List.mem_cons, not_or] at h
    rw [splitAtEach, if_neg (Ne.symm h.1), ih h.2]

/-- A mark in the text separates the pieces in front of it from those behind. -/
theorem splitAtEach_append (mark : Char) (a b : List Char) :
    splitAtEach mark (a ++ mark :: b) = splitAtEach mark a ++ splitAtEach mark b := by
  induction a with
  | nil => rw [List.nil_append, splitAtEach, splitAtEach, if_pos rfl, List.singleton_append]
  | cons c a ih =>
    rw [List.cons_append, splitAtEach, splitAtEach, ih]
    split
    · rfl
    · cases hpieces : splitAtEach mark a with
      | nil => exact absurd hpieces (splitAtEach_ne_nil mark a)
      | cons piece pieces => rfl

end TypeNotation
