import PaintBench.Decimal.Binary64

/-!
# Reading decimals in three roundings

A decimal literal is read in three steps, each of which rounds: the leading digits as far
as they fit into 64 bits, a power of ten, and their product or quotient. `scaled` is
the closest `Float` wherever the first two are exact, and otherwise off by a few units in
the last place. `Decimal.ofDecimal` rounds only once.
-/

namespace PaintBench.Decimal

/-- The value of a digit. -/
def digitValue (c : Char) : Nat :=
  c.toNat - '0'.toNat

/-- Append digits to a significand until it would not fit into 64 bits. The digits from
there on are left out; how many there are is the second value. -/
def appendDigits (significand : Nat) : List Char → Nat × Nat
  | [] => (significand, 0)
  | c :: rest =>
    let longer := 10 * significand + digitValue c
    if longer < UInt64.size then appendDigits longer rest
    else (significand, rest.length + 1)

/-- The greatest power of ten that is a `Float`. -/
def maxPower : Nat := 308

/-- The `Float` closest to a power of ten. -/
def floatPower (n : Nat) : Float :=
  ofDecimal false 1 n

/-- Divide by a power of ten, in steps where the power is no `Float`. -/
def divideByPower (x : Float) (n : Nat) : Float :=
  if n ≤ maxPower then x / floatPower n
  else if x == 0 then x
  else divideByPower (x / floatPower maxPower) (n - maxPower)
termination_by n
decreasing_by simp only [maxPower] at *; omega

/-- Multiply by a power of ten; infinite where the power is no `Float`. -/
def timesPower (x : Float) (n : Nat) : Float :=
  if n ≤ maxPower then x * floatPower n
  else if x == 0 then x
  else 1 / 0

/-- The value of `± significand · 10 ^ exponent`, or something infinite. -/
def scaled (negative : Bool) (significand : Nat) (exponent : Int) : Float :=
  let x := nearest false significand 1
  let y :=
    if exponent < 0 then divideByPower x exponent.natAbs else timesPower x exponent.natAbs
  if negative then -y else y

end PaintBench.Decimal
