/-!
# Binary floating-point numbers, exactly

A finite `Float` is a whole number of units of `2⁻¹⁰⁷⁴`: `unpack` reads the magnitude
off its bits as `m · 2ˢ` units, and `nearest` goes back from a fraction to the closest
`Float`, ties going to the even one. Both work on natural numbers and nothing is
rounded on the way, so what they compute can be stated without any floating-point
arithmetic.
-/

namespace PaintBench.Decimal

/-- A power of two. -/
def powerOfTwo (n : Nat) : Nat :=
  Nat.pow 2 n

/-- A power of ten. -/
def powerOfTen (n : Nat) : Nat :=
  Nat.pow 10 n

/-- The numerator of a fraction rounded to a whole number; a half goes to the even
neighbour. -/
def roundHalfEven (num den : Nat) : Nat :=
  let whole := num / den
  let twice := 2 * (num % den)
  if den < twice || (twice == den && whole % 2 == 1) then whole + 1 else whole

/-- What a `Float` stands for. -/
inductive Unpacked where
  | nan
  | infinite (negative : Bool)
  /-- the magnitude is `m · 2 ^ (s - 1074)` -/
  | finite (negative : Bool) (m s : Nat)
deriving Repr, DecidableEq

/-- Read a `Float` off its bits: a sign, eleven bits of exponent, 52 of fraction. -/
def unpack (x : Float) : Unpacked :=
  let bits := x.toBits.toNat
  let negative := bits / powerOfTwo 63 == 1
  let exponent := bits / powerOfTwo 52 % 2048
  let fraction := bits % powerOfTwo 52
  if exponent = 2047 then
    if fraction = 0 then .infinite negative else .nan
  else if exponent = 0 then .finite negative fraction 0
  else .finite negative (powerOfTwo 52 + fraction) (exponent - 1)

/-- Whether a `Float` is a number, neither infinite nor NaN. -/
def isFinite (x : Float) : Bool :=
  match unpack x with
  | .finite .. => true
  | _ => false

/-- The bits of the magnitude closest to `num / den`. The 53 leading binary places of
the fraction are kept, or fewer where units of `2⁻¹⁰⁷⁴` run out. -/
def magnitudeBits (num den : Nat) : Nat :=
  let units := num * powerOfTwo 1074
  let s := Nat.log2 (units / den) - 52
  roundHalfEven units (den * powerOfTwo s) + s * powerOfTwo 52

/-- The `Float` closest to `± num / den`, infinite when the fraction is too large. -/
def nearest (negative : Bool) (num den : Nat) : Float :=
  let magnitude := min (magnitudeBits num den) (2047 * powerOfTwo 52)
  Float.ofBits (UInt64.ofNat (magnitude + if negative then powerOfTwo 63 else 0))

/-- The `Float` closest to a whole number. -/
def ofInt (n : Int) : Float :=
  nearest (n < 0) n.natAbs 1

/-- The `Float` closest to `± mantissa · 10 ^ exponent`. Exponents beyond any `Float`
are answered without computing the power. -/
def ofDecimal (negative : Bool) (mantissa : Nat) (exponent : Int) : Float :=
  if mantissa = 0 then nearest negative 0 1
  else if 400 < exponent then nearest negative (powerOfTen 400) 1
  else if exponent < 0 then
    if (Nat.log2 mantissa : Int) + 1200 < -3 * exponent then nearest negative 0 1
    else nearest negative mantissa (powerOfTen exponent.natAbs)
  else nearest negative (mantissa * powerOfTen exponent.natAbs) 1

end PaintBench.Decimal
