/-!
# Tables of characters

A property of characters that follows no rule is given as a table: the code points that have it, as
inclusive ranges in increasing order.
-/

namespace TypeNotation

/-- The characters whose code points lie in one of the ranges. -/
abbrev CharTable := List (Nat × Nat)

def CharTable.contains (table : CharTable) (c : Char) : Bool :=
  table.any fun range ↦ range.1 ≤ c.toNat && c.toNat ≤ range.2

end TypeNotation
