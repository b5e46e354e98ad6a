import TypeNotation.Decimal.Double

/-!
# The shortest decimal of a double

A double is shown by the decimal with the fewest digits that is read back as the same double. The
coarsest power of ten with a multiple that reads back gives it: decimals on coarser powers of ten
have fewer digits. If two neighbouring multiples read back, the nearer one is taken, and of two that
are equally near the even one.
-/

namespace TypeNotation.Double

-- Powers are those of `Nat` itself, whatever other powers are in scope.
attribute [local instance (high)] instPowNat

/-- Whether `digits * 10 ^ exponent` is read as the double: it lies between the midpoints to the two
neighbours, and it may be a midpoint if the mantissa is even. Below a power of two the neighbours
are twice as dense. -/
def readsBack (x : Double) (digits : Nat) (exponent : Int) : Bool :=
  let quarters := 4 * x.mantissa
  let low := if x.mantissa = 2 ^ (52 : Nat) ∧ 0 < x.shift then quarters - 1 else quarters - 2
  let scale := 2 ^ x.shift * 10 ^ (-exponent).toNat
  let decimal := 4 * unitsPerOne * digits * 10 ^ exponent.toNat
  if x.mantissa % 2 = 0 then low * scale ≤ decimal && decimal ≤ (quarters + 2) * scale
  else low * scale < decimal && decimal < (quarters + 2) * scale

/-- How often a power of ten goes into the double, if a number next to that reads back. -/
def multiple? (x : Double) (exponent : Int) : Option Nat :=
  let num := x.units * 10 ^ (-exponent).toNat
  let den := unitsPerOne * 10 ^ exponent.toNat
  let nearest := nearestQuotient num den
  let other := if nearest = num / den then nearest + 1 else num / den
  [nearest, other].find? (x.readsBack · exponent)

/-- The first decimal that reads back, from a power of ten on downwards. -/
def shortestFrom (x : Double) (exponent : Int) : Nat → Nat × Int
  | 0 => (x.units * 10 ^ (-exponent).toNat / (unitsPerOne * 10 ^ exponent.toNat), exponent)
  | steps + 1 =>
    match x.multiple? exponent with
    | some digits => (digits, exponent)
    | none => shortestFrom x (exponent - 1) steps

/-- The shortest decimal, as its digits and a power of ten. The search ends at `10 ^ -1074` at the
latest, of which every double is a multiple. -/
def shortest (x : Double) : Nat × Int :=
  shortestFrom x maxPower (maxPower + 1074)

end TypeNotation.Double
