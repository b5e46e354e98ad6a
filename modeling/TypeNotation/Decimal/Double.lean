/-!
# Doubles

The finite non-negative numbers of the binary format with 53 significant digits, and the rounding
that leads to them. Such a number is a whole number of units of `2 ^ -1074`, so every quotient of
whole numbers is rounded on whole numbers: to the nearest, a tie to the even mantissa. Products,
quotients and powers of ten come down to that one rounding.
-/

namespace TypeNotation

-- Powers are those of `Nat` itself, whatever other powers are in scope.
attribute [local instance (high)] instPowNat

/-! ## Rounding a quotient -/

/-- The whole number nearest to a quotient, of two that are equally near the even one. -/
def nearestQuotient (num den : Nat) : Nat :=
  let floor := num / den
  let twice := 2 * (num % den)
  if den < twice ∨ (twice = den ∧ floor % 2 = 1) then floor + 1 else floor

theorem div_le_nearestQuotient (num den : Nat) : num / den ≤ nearestQuotient num den := by
  simp only [nearestQuotient]
  split <;> omega

/-! ## Doubles -/

/-- A finite double without its sign: `mantissa * 2 ^ shift` units of `2 ^ -1074`. The mantissa has
53 digits unless the shift is zero, so each number is written in one way. -/
structure Double where
  mantissa : Nat
  shift : Nat
  mantissa_lt : mantissa < 2 ^ (53 : Nat)
  normal : shift = 0 ∨ 2 ^ (52 : Nat) ≤ mantissa
  shift_le : shift ≤ 2045
  deriving DecidableEq, Repr

namespace Double

def unitsPerOne : Nat := 2 ^ (1074 : Nat)

def units (x : Double) : Nat := x.mantissa * 2 ^ x.shift

def zero : Double := ⟨0, 0, by decide, .inl rfl, by decide⟩

instance : Inhabited Double := ⟨zero⟩

/-- The digits of a number beyond its 53 leading ones. -/
def excess (n : Nat) : Nat := n.log2 - 52

/-- A number that has more than 53 digits keeps 53 of them when the others are cut off. -/
theorem le_div_two_pow_excess {n : Nat} (h : excess n ≠ 0) : 2 ^ (52 : Nat) ≤ n / 2 ^ excess n := by
  rw [excess] at h ⊢
  have hn : n ≠ 0 := by
    rintro rfl
    simp at h
  rw [Nat.le_div_iff_mul_le (Nat.two_pow_pos _), ← Nat.pow_add,
    show 52 + (n.log2 - 52) = n.log2 by omega]
  exact Nat.log2_self_le hn

/-- The double nearest to a quotient of units, unless that is beyond all doubles. -/
def ofUnits? (num den : Nat) : Option Double :=
  let shift := excess (num / den)
  let mantissa := nearestQuotient num (den * 2 ^ shift)
  if hm : mantissa < 2 ^ (53 : Nat) then
    if hs : shift ≤ 2045 then
      some ⟨mantissa, shift, hm, by
        by_cases h : excess (num / den) = 0
        · exact .inl h
        · refine .inr (Nat.le_trans (le_div_two_pow_excess h) ?_)
          rw [Nat.div_div_eq_div_mul]
          exact div_le_nearestQuotient _ _, hs⟩
    else none
  else if hs : shift + 1 ≤ 2045 then
    some ⟨2 ^ (52 : Nat), shift + 1, by decide, .inr (by decide), hs⟩
  else none

def ofNat? (n : Nat) : Option Double := ofUnits? (n * unitsPerOne) 1

def mul? (x y : Double) : Option Double := ofUnits? (x.units * y.units) unitsPerOne

def div? (x y : Double) : Option Double := ofUnits? (x.units * unitsPerOne) y.units

/-! ## Scaling by powers of ten -/

/-- The exponent of the largest power of ten that is below some double. -/
def maxPower : Nat := 308

/-- A double times a power of ten, both rounded before they are multiplied. -/
def scaleUp? (x : Double) (power : Nat) : Option Double :=
  if x = zero then some zero
  else if maxPower < power then none
  else (ofNat? (10 ^ power)).bind x.mul?

/-- A double divided by a power of ten, in steps of at most `10 ^ 308`, each of them rounded. -/
def scaleDown? (x : Double) (power : Nat) : Option Double :=
  if power ≤ maxPower then (ofNat? (10 ^ power)).bind x.div?
  else if x = zero then some zero
  else ((ofNat? (10 ^ maxPower)).bind x.div?).bind fun quotient ↦
    scaleDown? quotient (power - maxPower)
termination_by power
decreasing_by simp only [maxPower] at *; omega

/-- A significand times a power of ten, rounded at every step, unless it is beyond all doubles. -/
def ofScientific? (significand : Nat) (exponent : Int) : Option Double :=
  (ofNat? significand).bind fun x ↦
    if exponent < 0 then x.scaleDown? exponent.natAbs else x.scaleUp? exponent.natAbs

end Double

end TypeNotation
