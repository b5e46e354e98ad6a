/-!
# Hexadecimal numbers

Reading accepts digits of either case and nothing else; writing uses lower case. Only the written
digits matter to a reader: leading zeros are allowed and there is no limit on their number.
-/

namespace TypeNotation.Hex

/-- The value of a hexadecimal digit of either case. -/
def digit? (c : Char) : Option Nat :=
  if '0' ≤ c ∧ c ≤ '9' then some (c.toNat - '0'.toNat)
  else if 'a' ≤ c ∧ c ≤ 'f' then some (c.toNat - 'a'.toNat + 10)
  else if 'A' ≤ c ∧ c ≤ 'F' then some (c.toNat - 'A'.toNat + 10)
  else none

/-- The number that follows `high` once the digits of `text` are written behind it. -/
def valueFrom? (high : Nat) : List Char → Option Nat
  | [] => some high
  | c :: rest => (digit? c).bind fun d ↦ valueFrom? (16 * high + d) rest

/-- The number written by a non-empty run of digits. -/
def value? : List Char → Option Nat
  | [] => none
  | text => valueFrom? 0 text

/-- The character whose code point a run of digits names. -/
def char? (text : List Char) : Option Char :=
  (value? text).bind fun n ↦ if n.isValidChar then some (Char.ofNat n) else none

/-- A number in lower case digits, without leading zeros. -/
def write (n : Nat) : List Char :=
  Nat.toDigits 16 n

/-- A number in at least `width` lower case digits. -/
def writePadded (width n : Nat) : List Char :=
  List.replicate (width - (write n).length) '0' ++ write n

end TypeNotation.Hex
