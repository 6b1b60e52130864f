import Mathlib.Data.ENat.Lattice

/-!
# The first index

`firstIndex p` is the first number with a property, or infinity if there is none.
-/

namespace PaintBench

/-- The first number with a property, if there is one. -/
noncomputable def firstIndex (p : ℕ → Prop) : ℕ∞ :=
  ⨅ (j : ℕ) (_ : p j), (j : ℕ∞)

variable {p : ℕ → Prop} {n : ℕ}

theorem natCast_le_firstIndex_iff : (n : ℕ∞) ≤ firstIndex p ↔ ∀ j < n, ¬p j := by
  simp only [firstIndex, le_iInf_iff, Nat.cast_le]
  constructor
  · intro h j hj hp
    exact absurd (h j hp) (Nat.not_le.mpr hj)
  · intro h j hp
    by_contra hj
    exact h j (Nat.not_le.mp hj) hp

theorem firstIndex_eq_top_iff : firstIndex p = ⊤ ↔ ∀ j, ¬p j := by
  simp [firstIndex]

/-- The first number with a property has the property, and no number before it has. -/
theorem firstIndex_eq_iff : firstIndex p = n ↔ p n ∧ ∀ j < n, ¬p j := by
  constructor
  · intro h
    have hbefore : ∀ j < n, ¬p j := natCast_le_firstIndex_iff.mp h.ge
    refine ⟨?_, hbefore⟩
    by_contra hn
    have hlater : ((n + 1 : ℕ) : ℕ∞) ≤ firstIndex p := by
      refine natCast_le_firstIndex_iff.mpr fun j hj => ?_
      rcases Nat.lt_succ_iff_lt_or_eq.mp hj with hj | rfl
      · exact hbefore j hj
      · exact hn
    rw [h, Nat.cast_le] at hlater
    exact Nat.not_succ_le_self n hlater
  · rintro ⟨hn, hbefore⟩
    exact le_antisymm (iInf₂_le n hn) (natCast_le_firstIndex_iff.mpr hbefore)

theorem exists_firstIndex_eq {j : ℕ} (h : p j) : ∃ n ≤ j, firstIndex p = n := by
  have hle : firstIndex p ≤ j := iInf₂_le j h
  obtain ⟨n, hn⟩ := ENat.ne_top_iff_exists.mp (ne_top_of_le_ne_top (ENat.natCast_ne_top j) hle)
  rw [← hn, Nat.cast_le] at hle
  exact ⟨n, hle, hn.symm⟩

end PaintBench
