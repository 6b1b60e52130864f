import PaintBench.Decimal.Binary64

/-!
# Measured quantities

Times, durations and statistics are computed in whatever numbers are a `Quantity`. The
program uses `Float`. Exact numbers are an instance as well, and what holds for them says
that a formula is right apart from rounding.

`Quantity.max` is the greater of two numbers and ignores what is not a number.
-/

namespace PaintBench

/-- Numbers that can be measured, compared and averaged. -/
class Quantity (α : Type) extends Add α, Sub α, Mul α, Div α, LT α, LE α where
  ofNat : Nat → α
  decLt : DecidableRel (fun a b : α => a < b)
  decLe : DecidableRel (fun a b : α => a ≤ b)
  sqrt : α → α
  log : α → α
  exp : α → α
  /-- the greatest whole number not above a number that is not negative -/
  floor : α → Nat

namespace Quantity

variable {α : Type} [Quantity α]

instance (a b : α) : Decidable (a < b) := decLt a b
instance (a b : α) : Decidable (a ≤ b) := decLe a b

/-- The greater of two numbers; the other one if one is not a number, that is, not even
at most itself. -/
def max (a b : α) : α :=
  if a < b then b else if a ≤ a then a else b

/-- A number forced into a range. -/
def clamp (low high a : α) : α :=
  if a < low then low else if high < a then high else a

/-- The sum from left to right; nothing sums up to zero. -/
def sum : List α → α
  | [] => ofNat 0
  | a :: rest => rest.foldl (· + ·) a

end Quantity

instance : Quantity Float where
  ofNat n := Decimal.ofInt n
  decLt := inferInstance
  decLe := inferInstance
  sqrt := Float.sqrt
  log := Float.log
  exp := Float.exp
  floor x := x.toUInt64.toNat

end PaintBench
