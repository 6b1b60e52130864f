import PaintBench.Decimal.Binary64

/-!
# The fewest digits that read back

Every `Float` is the closest one to a whole interval of numbers. `shortest` finds the
coarsest power of ten with a multiple in that interval, and of the at most two
neighbours of the value on that grid the nearer one: the fewest digits that read back,
and the closest of those.

Magnitudes are counted in units of `2⁻¹⁰⁷⁶`, a quarter of the least positive `Float`,
so that the ends of every interval are whole.
-/

namespace PaintBench.Decimal

/-- A decimal number `digits · 10 ^ exponent`. -/
structure Digits where
  digits : Nat
  exponent : Int
deriving Repr, DecidableEq

/-- The numbers that a `Float` is closest to, in units of `2⁻¹⁰⁷⁶`. -/
structure Interval where
  low : Nat
  value : Nat
  high : Nat
  /-- whether the ends belong to it -/
  closed : Bool

/-- The interval of `m · 2ˢ`. Below a power of two the spacing is half as wide. -/
def Interval.of (m s : Nat) : Interval where
  low := (4 * m - if m = powerOfTwo 52 ∧ s ≠ 0 then 1 else 2) * powerOfTwo s
  value := 4 * m * powerOfTwo s
  high := (4 * m + 2) * powerOfTwo s
  closed := m % 2 == 0

/-- Whether `num / den` lies in the interval. -/
def Interval.holds (i : Interval) (num den : Nat) : Bool :=
  if i.closed then i.low * den ≤ num && num ≤ i.high * den
  else i.low * den < num && num < i.high * den

/-- Which neighbour an exact half goes to. -/
inductive Tie where
  | even
  | up
deriving DecidableEq

/-- The multiple of `10 ^ exponent` in the interval that is nearest to its value. -/
def Interval.onGrid (i : Interval) (tie : Tie) (exponent : Int) : Option Nat :=
  let unit := powerOfTwo 1076 * powerOfTen exponent.toNat
  let den := powerOfTen (-exponent).toNat
  let below := i.value * den / unit
  let above := below + 1
  let twice := 2 * (i.value * den % unit)
  match i.holds (below * unit) den, i.holds (above * unit) den with
  | false, false => none
  | true, false => some below
  | false, true => some above
  | true, true =>
    if twice < unit then some below
    else if unit < twice then some above
    else if tie = .even && below % 2 == 0 then some below
    else some above

/-- Try finer and finer grids. When the tries run out, the value itself is given in
full. -/
def Interval.search (i : Interval) (tie : Tie) : Nat → Int → Digits
  | 0, _ => ⟨i.value * Nat.pow 5 1076, -1076⟩
  | tries + 1, exponent =>
    match i.onGrid tie exponent with
    | some digits => ⟨digits, exponent⟩
    | none => i.search tie tries (exponent - 1)

/-- The fewest digits that read back as `m · 2ˢ` units of `2⁻¹⁰⁷⁴`. The search starts
above the first digit of the value. -/
def shortest (tie : Tie) (m s : Nat) : Digits :=
  let magnitude : Int := Nat.log2 m + s - 1074
  (Interval.of m s).search tie 40 (magnitude * 30103 / 100000 + 2)

end PaintBench.Decimal
