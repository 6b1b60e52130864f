import Mathlib.Order.Bounds.Defs
import PaintBench.Quantity

/-!
# Comparable quantities

What is at most itself is a number. Numbers are ordered, but two of them may be alike
without being equal, as the two zeros are. `Quantity.Ordered` says what comparisons have to
do for this, and that alike numbers lead to alike differences and quotients.

`isGreatest_foldl_max` is what the greatest of some numbers is good for, whichever of alike
ones it is.
-/

namespace PaintBench.Quantity

variable {α : Type} [Quantity α]

/-- Equal, or at most each other. -/
def Alike (a b : α) : Prop :=
  a = b ∨ a ≤ b ∧ b ≤ a

/-- Numbers are ordered up to alike ones. -/
class Ordered (α : Type) [Quantity α] : Prop where
  le_trans {a b c : α} : a ≤ b → b ≤ c → a ≤ c
  lt_iff {a b : α} : a < b ↔ a ≤ b ∧ ¬ b ≤ a
  le_total {a b : α} : a ≤ a → b ≤ b → a ≤ b ∨ b ≤ a
  sub_alike {a b : α} (c : α) : Alike a b → Alike (a - c) (b - c)
  div_alike {a b : α} (c : α) : Alike a b → Alike (a / c) (b / c)

variable {a b c : α}

/-- Two greatest numbers of a set are alike. -/
theorem alike_of_isGreatest {s : Set α} (ha : IsGreatest s a) (hb : IsGreatest s b) :
    Alike a b :=
  Or.inr ⟨hb.2 ha.1, ha.2 hb.1⟩

variable [Ordered α]

/-- Of alike numbers the same ones are less. -/
theorem Alike.lt_iff_right (h : Alike a b) : c < a ↔ c < b := by
  rcases h with rfl | ⟨hab, hba⟩
  · exact Iff.rfl
  · rw [Ordered.lt_iff, Ordered.lt_iff]
    constructor
    · rintro ⟨hca, hac⟩
      exact ⟨Ordered.le_trans hca hab, fun hbc => hac (Ordered.le_trans hab hbc)⟩
    · rintro ⟨hcb, hbc⟩
      exact ⟨Ordered.le_trans hcb hba, fun hac => hbc (Ordered.le_trans hba hac)⟩

/-- Alike numbers are less than the same ones. -/
theorem Alike.lt_iff_left (h : Alike a b) : a < c ↔ b < c := by
  rcases h with rfl | ⟨hab, hba⟩
  · exact Iff.rfl
  · rw [Ordered.lt_iff, Ordered.lt_iff]
    constructor
    · rintro ⟨hac, hca⟩
      exact ⟨Ordered.le_trans hba hac, fun hcb => hca (Ordered.le_trans hcb hba)⟩
    · rintro ⟨hbc, hcb⟩
      exact ⟨Ordered.le_trans hab hbc, fun hca => hcb (Ordered.le_trans hca hab)⟩

/-- The greater of two numbers is one of them and at least both. -/
theorem max_cases (ha : a ≤ a) (hb : b ≤ b) :
    (Quantity.max a b = a ∨ Quantity.max a b = b) ∧
      a ≤ Quantity.max a b ∧ b ≤ Quantity.max a b := by
  unfold Quantity.max
  by_cases hab : a < b
  · rw [if_pos hab]
    exact ⟨Or.inr rfl, (Ordered.lt_iff.mp hab).1, hb⟩
  · rw [if_neg hab, if_pos ha]
    have hba : b ≤ a := by
      rcases Ordered.le_total ha hb with h | h
      · exact Decidable.byContradiction fun hba => hab (Ordered.lt_iff.mpr ⟨h, hba⟩)
      · exact h
    exact ⟨Or.inl rfl, ha, hba⟩

/-- The greatest of some numbers is one of them, and all are at most this one. -/
theorem isGreatest_foldl_max {l : List α} (ha : a ≤ a) (hl : ∀ b ∈ l, b ≤ b) :
    IsGreatest {x | x ∈ a :: l} (l.foldl Quantity.max a) := by
  induction l generalizing a with
  | nil =>
    refine ⟨List.mem_singleton_self a, fun x hx => ?_⟩
    rw [List.mem_singleton.mp hx]
    exact ha
  | cons b l ih =>
    obtain ⟨hmem, hamax, hbmax⟩ := max_cases ha (hl b (by simp))
    have hmax : Quantity.max a b ≤ Quantity.max a b := by
      rcases hmem with h | h <;> rw [h]
      · exact ha
      · exact hl b (by simp)
    obtain ⟨hgreatest, hbound⟩ := ih hmax fun c hc => hl c (by simp [hc])
    have hstart := hbound (List.mem_cons_self ..)
    refine ⟨?_, fun x hx => ?_⟩
    · rcases List.mem_cons.mp hgreatest with h | h
      · rw [List.foldl_cons, h]
        rcases hmem with hm | hm
        · rw [hm]
          exact List.mem_cons_self
        · rw [hm]
          exact List.mem_cons_of_mem _ List.mem_cons_self
      · exact List.mem_cons_of_mem _ (List.mem_cons_of_mem _ h)
    · rcases List.mem_cons.mp hx with rfl | hx
      · exact Ordered.le_trans hamax hstart
      · rcases List.mem_cons.mp hx with rfl | hx
        · exact Ordered.le_trans hbmax hstart
        · exact hbound (List.mem_cons_of_mem _ hx)

end PaintBench.Quantity
