import TypeNotation.Decimal.Shortest
import TypeNotation.Json.Reader

/-!
# JSON numbers

A number is an integer if it is written as one and fits in 64 bits; otherwise it is a decimal and
becomes a double. The significand takes digits while it fits in 64 bits, and the digits after that
only count as powers of ten. The significand and the power of ten are rounded before they are
multiplied or divided, so that the double need not be the nearest one. A decimal beyond all doubles
is an error.
-/

namespace TypeNotation

-- Powers are those of `Nat` itself, whatever other powers are in scope.
attribute [local instance (high)] instPowNat

/-! ## Values -/

inductive JsonNumber
  | integer (value : Int)
  | decimal (negative : Bool) (magnitude : Double)
  deriving DecidableEq, Repr, Inhabited

/-! ## Text -/

/-- A decimal without its sign, as `digits * 10 ^ exponent`: positional with at least one digit on
each side of the point when the point is near the digits, otherwise with one digit in front of the
point and a signed exponent. -/
def decimalText (digits : Nat) (exponent : Int) : String :=
  let text := Nat.toDigits 10 digits
  let point := exponent + text.length
  if digits = 0 then "0.0"
  else if 0 ≤ exponent ∧ point ≤ 16 then
    String.ofList (text ++ List.replicate exponent.toNat '0') ++ ".0"
  else if 0 < point ∧ point ≤ 16 then
    String.ofList (text.take point.toNat) ++ "." ++ String.ofList (text.drop point.toNat)
  else if -5 < point ∧ point ≤ 0 then
    "0." ++ String.ofList (List.replicate (-point).toNat '0' ++ text)
  else
    String.ofList (text.take 1) ++ (if text.length = 1 then "" else ".") ++
      String.ofList (text.drop 1) ++ "e" ++ (if 0 < point then "+" else "") ++ toString (point - 1)

/-- A number as it is named in messages, a decimal with the fewest digits that identify it. -/
def JsonNumber.describe : JsonNumber → String
  | integer value => "integer `" ++ toString value ++ "`"
  | decimal negative magnitude =>
    let (digits, exponent) := magnitude.shortest
    "floating point `" ++ (if negative then "-" else "") ++ decimalText digits exponent ++ "`"

/-! ## Reading -/

theorem length_dropDigits_lt (rest : List Char) :
    (rest.dropWhile Char.isDigit).length < rest.length + 1 :=
  Nat.lt_succ_of_le (List.dropWhile_sublist _).length_le

/-- Reads a run of digits, at least one. -/
def readDigits : JsonReader (List Char)
  | [] => .error (.before .endInValue [])
  | c :: rest =>
    if c.isDigit then
      .ok ⟨c :: rest.takeWhile Char.isDigit, rest.dropWhile Char.isDigit,
        length_dropDigits_lt rest⟩
    else .error (.inside .invalidNumber (c :: rest))

/-- Reads something that a mark announces, if the mark is there. -/
def readMarked {α : Type} (mark : Char → Bool) (reader : JsonReader α) (input : List Char) :
    Except JsonError (Taken (Option α) (input.length + 1)) :=
  match input with
  | c :: rest =>
    if mark c then
      (reader rest).map fun taken ↦
        (taken.map some).within (Nat.le_succ_of_le (Nat.le_succ _))
    else .ok ⟨none, c :: rest, Nat.lt_succ_self _⟩
  | [] => .ok ⟨none, [], Nat.lt_succ_self _⟩

/-- Reads the sign and the digits of an exponent. -/
def readExponent : JsonReader (Bool × List Char)
  | '+' :: rest => (readDigits rest).map fun taken ↦
      (taken.map (false, ·)).within (length_le_behind rest)
  | '-' :: rest => (readDigits rest).map fun taken ↦
      (taken.map (true, ·)).within (length_le_behind rest)
  | rest => (readDigits rest).map (·.map (false, ·))

/-- The number written by digits behind `high`, as far as it does not exceed `limit`, and how many
digits are left. -/
def fitDigits (limit high : Nat) : List Char → Nat × Nat
  | [] => (high, 0)
  | c :: rest =>
    let next := 10 * high + (c.toNat - '0'.toNat)
    if limit < next then (high, rest.length + 1) else fitDigits limit next rest

def maxSignificand : Nat := 2 ^ (64 : Nat) - 1

def maxExponent : Nat := 2 ^ (31 : Nat) - 1

/-- A decimal in front of what is left, unless it is out of range. -/
def decimalInRange (negative : Bool) (significand : Nat) (exponent : Int) (rest : List Char) :
    Except JsonError JsonNumber :=
  match Double.ofScientific? significand exponent with
  | some magnitude => .ok (.decimal negative magnitude)
  | none => .error (.before .numberOutOfRange rest)

/-- The number with the given digits, in front of what is left. -/
def numberOfParts (negative : Bool) (whole : List Char) (fraction : Option (List Char))
    (exponent : Option (Bool × List Char)) (rest : List Char) : Except JsonError JsonNumber :=
  let (wholePart, beyond) := fitDigits maxSignificand 0 whole
  let (significand, shift) : Nat × Int := match fraction with
    | none => (wholePart, beyond)
    | some digits =>
      let (significand, ignored) := fitDigits maxSignificand wholePart digits
      (significand, (beyond : Int) - (digits.length - ignored : Nat))
  match exponent with
  | some (below, digits) =>
    let (value, ignored) := fitDigits maxExponent 0 digits
    if ignored = 0 then
      decimalInRange negative significand (if below then shift - value else shift + value) rest
    else if significand = 0 ∨ below then .ok (.decimal negative .zero)
    else .error ⟨.numberOutOfRange, utf8Length rest + (ignored - 1)⟩
  | none =>
    if fraction.isSome ∨ beyond ≠ 0 then decimalInRange negative significand shift rest
    else if negative then
      if significand = 0 ∨ 2 ^ (63 : Nat) < significand then decimalInRange true significand 0 rest
      else .ok (.integer (-significand))
    else .ok (.integer significand)

/-- Reads a number behind its sign, if it has one. -/
def readNumber (negative : Bool) : JsonReader JsonNumber := fun input ↦ do
  let whole ← readDigits input
  if 1 < whole.value.length ∧ whole.value.head? = some '0' then
    .error (.inside .invalidNumber (input.drop 1))
  else
    let fraction ← readMarked (· = '.') readDigits whole.rest
    let exponent ← readMarked (fun c ↦ c = 'e' || c = 'E') readExponent fraction.rest
    let number ← numberOfParts negative whole.value fraction.value exponent.value exponent.rest
    .ok ⟨number, exponent.rest, by
      have h₁ := whole.shorter
      have h₂ := fraction.shorter
      have h₃ := exponent.shorter
      omega⟩

end TypeNotation
