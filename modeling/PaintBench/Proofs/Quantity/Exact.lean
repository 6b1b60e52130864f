import Mathlib.Analysis.SpecialFunctions.Log.Basic
import PaintBench.Proofs.Quantity.Ordered

/-!
# Exact numbers as quantities

Real numbers are measured without rounding. All of them are numbers, and alike ones are
equal.
-/

namespace PaintBench

noncomputable instance : Quantity ℝ where
  ofNat n := n
  decLt := inferInstance
  decLe := inferInstance
  sqrt := Real.sqrt
  log := Real.log
  exp := Real.exp
  floor x := ⌊x⌋₊

namespace Quantity

theorem ofNat_real (n : Nat) : (Quantity.ofNat n : ℝ) = n :=
  rfl

/-- Alike exact numbers are equal. -/
theorem alike_real {a b : ℝ} : Alike a b ↔ a = b := by
  constructor
  · rintro (h | ⟨hab, hba⟩)
    · exact h
    · exact le_antisymm hab hba
  · exact Or.inl

instance : Ordered ℝ where
  le_trans h h' := h.trans h'
  lt_iff := lt_iff_le_not_ge
  le_total _ _ := LinearOrder.le_total _ _
  sub_alike c h := Or.inl (by rw [alike_real.mp h])
  div_alike c h := Or.inl (by rw [alike_real.mp h])

end Quantity

end PaintBench
