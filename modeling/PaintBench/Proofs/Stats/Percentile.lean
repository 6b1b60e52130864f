import PaintBench.Proofs.Quantity.Exact
import PaintBench.Proofs.Stats.Summary

/-!
# Percentiles of exact samples

In ascending order, samples are the corners of a broken line: between neighbouring ranks it is
straight (`atRank_add`). A percentile is the value of this line at a rank that grows with the
percentage (`percentile_eq_atRank`). As the corners ascend, so does the line (`atRank_mono`).

`Interpolated` collects what this says about all percentiles of some samples.
-/

namespace PaintBench.Stats

variable {samples s : List ℝ} {k : ℕ} {p t : ℝ}

/-! ## Samples in ascending order -/

/-- `s` is the samples in ascending order. -/
structure Ascends (samples s : List ℝ) : Prop where
  perm : s.Perm samples
  pairwise : s.Pairwise (· ≤ ·)

theorem ascends_ascending (samples : List ℝ) : Ascends samples (ascending samples) where
  perm := List.mergeSort_perm samples _
  pairwise := pairwise_ascending fun a _ => le_refl a

namespace Ascends

variable (h : Ascends samples s)
include h

/-- There is one ascending order only. -/
theorem ascending_eq : ascending samples = s :=
  (ascends_ascending samples).perm.trans h.perm.symm |>.eq_of_pairwise
    (fun _ _ _ _ => le_antisymm) (ascends_ascending samples).pairwise h.pairwise

theorem length_eq : s.length = samples.length :=
  h.perm.length_eq

/-- What is in ascending order stays as it is. -/
theorem self : Ascends s s :=
  ⟨.refl s, h.pairwise⟩

/-- Samples of a lower rank are not greater. -/
theorem getElem_le {i j : ℕ} (hij : i ≤ j) (hj : j < s.length) : s[i] ≤ s[j] := by
  rcases Nat.eq_or_lt_of_le hij with rfl | hlt
  · exact le_refl _
  · exact List.pairwise_iff_getElem.mp h.pairwise i j _ hj hlt

theorem isLeast (hpos : 0 < s.length) : IsLeast {a | a ∈ samples} s[0] := by
  refine ⟨h.perm.mem_iff.mp (List.getElem_mem hpos), fun a ha => ?_⟩
  obtain ⟨i, hi, rfl⟩ := List.mem_iff_getElem.mp (h.perm.mem_iff.mpr ha)
  exact h.getElem_le (Nat.zero_le i) hi

theorem isGreatest (hpos : 0 < s.length) : IsGreatest {a | a ∈ samples} s[s.length - 1] := by
  refine ⟨h.perm.mem_iff.mp (List.getElem_mem _), fun a ha => ?_⟩
  obtain ⟨i, hi, rfl⟩ := List.mem_iff_getElem.mp (h.perm.mem_iff.mpr ha)
  exact h.getElem_le (Nat.le_sub_one_of_lt hi) _

end Ascends

/-! ## The broken line through the samples -/

theorem atRank_natCast (hk : k < s.length) : atRank s (k : ℝ) = some s[k] := by
  have hfloor : Quantity.floor (k : ℝ) = k := Nat.floor_natCast k
  simp only [atRank, hfloor]
  exact (if_pos (le_refl _)).trans (List.getElem?_eq_getElem hk)

/-- Between two neighbouring ranks the line is straight. -/
theorem atRank_add (hk : k + 1 < s.length) (h0 : 0 ≤ t) (h1 : t ≤ 1) :
    atRank s (k + t) = some (s[k] + t * (s[k + 1] - s[k])) := by
  rcases h1.lt_or_eq with hlt | rfl
  · rcases h0.lt_or_eq with hpos | rfl
    · have hfloor : Quantity.floor ((k : ℝ) + t) = k := by
        refine (Nat.floor_eq_iff (by positivity)).mpr ⟨by linarith, by linarith⟩
      have hnot : ¬(k : ℝ) + t ≤ Quantity.ofNat k := by
        rw [Quantity.ofNat_real]
        linarith
      have hfraction : (k : ℝ) + t - Quantity.ofNat k = t := by
        rw [Quantity.ofNat_real]
        ring
      simp only [atRank, hfloor]
      rw [if_neg hnot, List.getElem?_eq_getElem (Nat.lt_of_succ_lt hk),
        List.getElem?_eq_getElem hk]
      exact congrArg (fun f => some (s[k] + f * (s[k + 1] - s[k]))) hfraction
    · rw [add_zero, zero_mul, add_zero]
      exact atRank_natCast (Nat.lt_of_succ_lt hk)
  · have hrank : (k : ℝ) + 1 = (k + 1 : ℕ) := by push_cast; rfl
    rw [hrank, atRank_natCast hk, one_mul, add_sub_cancel]

/-- Every rank lies between two neighbouring ones. -/
theorem exists_eq_natCast_add {r : ℝ} {n : ℕ} (hn : 1 < n) (h0 : 0 ≤ r)
    (hr : r ≤ (n - 1 : ℕ)) : ∃ (k : ℕ) (t : ℝ), k + 1 < n ∧ 0 ≤ t ∧ t ≤ 1 ∧ r = k + t := by
  by_cases hlast : ⌊r⌋₊ + 1 < n
  · refine ⟨⌊r⌋₊, r - ⌊r⌋₊, hlast, ?_, ?_, by ring⟩
    · exact sub_nonneg.mpr (Nat.floor_le h0)
    · have hlt := Nat.lt_floor_add_one r
      linarith
  · -- only the last rank has no gap after it, so it ends the last gap
    have hge : ((n - 1 : ℕ) : ℝ) ≤ r :=
      (Nat.cast_le.mpr (by omega : n - 1 ≤ ⌊r⌋₊)).trans (Nat.floor_le h0)
    obtain ⟨k, rfl⟩ := Nat.exists_eq_add_of_lt hn
    refine ⟨k, 1, by omega, zero_le_one, le_refl 1, ?_⟩
    have heq : r = ((1 + k + 1 - 1 : ℕ) : ℝ) := le_antisymm hr hge
    rw [heq, show 1 + k + 1 - 1 = k + 1 by omega]
    push_cast
    rfl

/-- The value at a rank lies between the corners next to it, whose places are the rank rounded
down and up. -/
theorem atRank_eq {r : ℝ} (hr : r ≤ (s.length - 1 : ℕ)) (hpos : 0 < s.length) :
    ∃ (hlower : ⌊r⌋₊ < s.length) (hupper : ⌈r⌉₊ < s.length),
      atRank s r = some (s[⌊r⌋₊] + (r - ⌊r⌋₊) * (s[⌈r⌉₊] - s[⌊r⌋₊])) := by
  have hupper : ⌈r⌉₊ < s.length := by
    have hle : ⌈r⌉₊ ≤ s.length - 1 := Nat.ceil_le.mpr hr
    omega
  have hlower : ⌊r⌋₊ < s.length := (Nat.floor_le_ceil r).trans_lt hupper
  refine ⟨hlower, hupper, ?_⟩
  by_cases hwhole : r ≤ ⌊r⌋₊
  · have hceil : ⌈r⌉₊ = ⌊r⌋₊ := le_antisymm (Nat.ceil_le.mpr hwhole) (Nat.floor_le_ceil r)
    simp only [hceil, sub_self, mul_zero, add_zero]
    exact (if_pos hwhole).trans (List.getElem?_eq_getElem hlower)
  · have hceil : ⌈r⌉₊ = ⌊r⌋₊ + 1 := by
      refine le_antisymm (Nat.ceil_le.mpr ?_) (Nat.lt_ceil.mpr (not_le.mp hwhole))
      exact_mod_cast (Nat.lt_floor_add_one r).le
    simp only [hceil] at hupper ⊢
    refine (if_neg hwhole).trans ?_
    rw [show Quantity.floor r = ⌊r⌋₊ from rfl, List.getElem?_eq_getElem hlower,
      List.getElem?_eq_getElem hupper]
    rfl

/-- The line ascends with its corners. -/
theorem atRank_mono (h : Ascends samples s) (hpos : 0 < s.length) {q r : ℝ} (h0 : 0 ≤ q)
    (hqr : q ≤ r) (hr : r ≤ (s.length - 1 : ℕ)) :
    ∃ a b, atRank s q = some a ∧ atRank s r = some b ∧ a ≤ b := by
  rcases Nat.eq_or_lt_of_le hpos with hone | hlen
  · -- there is a single rank
    have hzero : r ≤ 0 := by rwa [← hone, Nat.sub_self, Nat.cast_zero] at hr
    obtain rfl : q = (0 : ℕ) := by
      rw [Nat.cast_zero]
      linarith
    obtain rfl : r = (0 : ℕ) := le_antisymm (by rwa [Nat.cast_zero]) hqr
    exact ⟨_, _, atRank_natCast hpos, atRank_natCast hpos, le_refl _⟩
  obtain ⟨i, t, hi, ht0, ht1, rfl⟩ := exists_eq_natCast_add hlen h0 (hqr.trans hr)
  obtain ⟨j, u, hj, hu0, hu1, rfl⟩ := exists_eq_natCast_add hlen (h0.trans hqr) hr
  refine ⟨_, _, atRank_add hi ht0 ht1, atRank_add hj hu0 hu1, ?_⟩
  have hstep : 0 ≤ s[i + 1] - s[i] := sub_nonneg.mpr (h.getElem_le (Nat.le_succ i) hi)
  have hstep' : 0 ≤ s[j + 1] - s[j] := sub_nonneg.mpr (h.getElem_le (Nat.le_succ j) hj)
  rcases Nat.lt_trichotomy i j with hij | rfl | hji
  · -- in different gaps: the corners between them separate the values
    calc s[i] + t * (s[i + 1] - s[i]) ≤ s[i] + 1 * (s[i + 1] - s[i]) := by gcongr
      _ = s[i + 1] := by ring
      _ ≤ s[j] := h.getElem_le hij (Nat.lt_of_succ_lt hj)
      _ ≤ s[j] + u * (s[j + 1] - s[j]) := le_add_of_nonneg_right (mul_nonneg hu0 hstep')
  · have htu : t ≤ u := by linarith
    gcongr
  · -- the ranks ascend, so both are the corner between the gaps
    have hcast : (j : ℝ) + 1 ≤ i := by exact_mod_cast hji
    obtain rfl : t = 0 := by linarith
    obtain rfl : u = 1 := by linarith
    obtain rfl : i = j + 1 := by
      have hle : (i : ℝ) ≤ (j + 1 : ℕ) := by
        push_cast
        linarith
      exact le_antisymm (Nat.cast_le.mp hle) hji
    exact le_of_eq (by ring)

/-- The line stays between its ends. -/
theorem atRank_mem (h : Ascends samples s) (hpos : 0 < s.length) {r : ℝ} (h0 : 0 ≤ r)
    (hr : r ≤ (s.length - 1 : ℕ)) :
    ∃ a, atRank s r = some a ∧ s[0] ≤ a ∧ a ≤ s[s.length - 1] := by
  obtain ⟨first, a, hfirst, ha, hle⟩ := atRank_mono h hpos (le_refl 0) h0 hr
  obtain ⟨a', last, ha', hlast, hle'⟩ := atRank_mono h hpos h0 hr (le_refl _)
  rw [← Nat.cast_zero, atRank_natCast hpos] at hfirst
  rw [atRank_natCast (Nat.sub_one_lt_of_lt hpos)] at hlast
  obtain rfl := Option.some.inj hfirst
  obtain rfl := Option.some.inj hlast
  obtain rfl := Option.some.inj (ha.symm.trans ha')
  exact ⟨a, ha, hle, hle'⟩

/-! ## Percentiles -/

/-- The rank of a percentile among a number of samples. -/
noncomputable def rankOf (n : ℕ) (p : ℝ) : ℝ :=
  p / 100 * (n - 1 : ℕ)

section
variable {n : ℕ} {q : ℝ}

theorem rankOf_nonneg (h0 : 0 ≤ p) : 0 ≤ rankOf n p := by
  unfold rankOf
  positivity

theorem rankOf_mono (h : p ≤ q) : rankOf n p ≤ rankOf n q := by
  unfold rankOf
  gcongr

theorem rankOf_le (h : p ≤ 100) : rankOf n p ≤ (n - 1 : ℕ) :=
  (rankOf_mono h).trans (le_of_eq (by rw [rankOf, div_self (by norm_num), one_mul]))

/-- Every rank is that of a percentile. -/
theorem rankOf_percentage (hn : 1 < n) (r : ℝ) : rankOf n (100 * r / (n - 1)) = r := by
  have hne : (n : ℝ) - 1 ≠ 0 := by
    have hlt : (1 : ℝ) < n := by exact_mod_cast hn
    linarith
  rw [rankOf, Nat.cast_pred (Nat.zero_lt_of_lt hn)]
  field_simp

end

theorem percentile_of_outside (h : ¬(0 ≤ p ∧ p ≤ 100)) : percentile samples p = none := by
  have hrange : ¬((Quantity.ofNat 0 : ℝ) ≤ p ∧ p ≤ Quantity.ofNat 100) := by
    simpa [Quantity.ofNat_real] using h
  exact if_pos (Or.inr hrange)

/-- A percentile is the value at its rank. -/
theorem percentile_eq_atRank (h : Ascends samples s) (hpos : 0 < s.length) (h0 : 0 ≤ p)
    (h100 : p ≤ 100) : percentile samples p = atRank s (rankOf s.length p) := by
  have hne : samples.isEmpty = false := by
    rw [List.isEmpty_eq_false_iff, ← List.length_pos_iff, ← h.length_eq]
    exact hpos
  have hrange : (Quantity.ofNat 0 : ℝ) ≤ p ∧ p ≤ Quantity.ofNat 100 := by
    simpa [Quantity.ofNat_real] using And.intro h0 h100
  have hgoesOn : ¬(samples.isEmpty = true ∨
      ¬((Quantity.ofNat 0 : ℝ) ≤ p ∧ p ≤ Quantity.ofNat 100)) := by simp [hne, hrange]
  refine (if_neg hgoesOn).trans ?_
  rw [h.ascending_eq]
  split
  · next only =>
    have hrank : rankOf [only].length p = (0 : ℕ) := by simp [rankOf]
    rw [hrank]
    exact (atRank_natCast hpos).symm
  · simp [rankOf, Quantity.ofNat_real]

/-- The percentage of a rank leads to that rank. -/
theorem percentile_percentage (h : Ascends samples s) (hlen : 1 < s.length) {r : ℝ} (h0 : 0 ≤ r)
    (hr : r ≤ (s.length - 1 : ℕ)) :
    percentile samples (100 * r / (s.length - 1)) = atRank s r := by
  have hgap : (0 : ℝ) < s.length - 1 := by
    have hlt : (1 : ℝ) < s.length := by exact_mod_cast hlen
    linarith
  rw [Nat.cast_pred (Nat.zero_lt_of_lt hlen)] at hr
  rw [percentile_eq_atRank h (Nat.zero_lt_of_lt hlen) (by positivity), rankOf_percentage hlen]
  rw [div_le_iff₀ hgap]
  gcongr

/-- The percentiles of samples, which are `s` in ascending order: each is the value of the line
between two samples whose places are the rank rounded down and up. -/
structure Interpolated (samples s : List ℝ) : Prop where
  ascends : Ascends samples s
  value : ∀ p, 0 ≤ p → p ≤ 100 →
    ∃ (hlower : ⌊rankOf s.length p⌋₊ < s.length) (hupper : ⌈rankOf s.length p⌉₊ < s.length),
      percentile samples p = some (s[⌊rankOf s.length p⌋₊] +
        (rankOf s.length p - ⌊rankOf s.length p⌋₊) *
          (s[⌈rankOf s.length p⌉₊] - s[⌊rankOf s.length p⌋₊]))
  mono : ∀ p q, 0 ≤ p → p ≤ q → q ≤ 100 →
    ∃ a b, percentile samples p = some a ∧ percentile samples q = some b ∧ a ≤ b
  least : ∃ a, percentile samples 0 = some a ∧ IsLeast {a | a ∈ samples} a
  greatest : ∃ a, percentile samples 100 = some a ∧ IsGreatest {a | a ∈ samples} a
  corner : 1 < s.length → ∀ k (hk : k < s.length),
    percentile samples (100 * k / (s.length - 1)) = some s[k]
  between : ∀ k (hk : k + 1 < s.length) t, 0 ≤ t → t ≤ 1 →
    percentile samples (100 * (k + t) / (s.length - 1)) = some (s[k] + t * (s[k + 1] - s[k]))

theorem Ascends.interpolated (h : Ascends samples s) (hpos : 0 < s.length) :
    Interpolated samples s where
  ascends := h
  value p h0 h100 := by
    rw [percentile_eq_atRank h hpos h0 h100]
    exact atRank_eq (rankOf_le h100) hpos
  mono p q h0 hpq h100 := by
    rw [percentile_eq_atRank h hpos h0 (hpq.trans h100),
      percentile_eq_atRank h hpos (h0.trans hpq) h100]
    exact atRank_mono h hpos (rankOf_nonneg h0) (rankOf_mono hpq) (rankOf_le h100)
  least := by
    have hrank : rankOf s.length 0 = (0 : ℕ) := by simp [rankOf]
    refine ⟨s[0], ?_, h.isLeast hpos⟩
    rw [percentile_eq_atRank h hpos (le_refl 0) (by norm_num), hrank]
    exact atRank_natCast hpos
  greatest := by
    have hrank : rankOf s.length 100 = (s.length - 1 : ℕ) := by simp [rankOf]
    refine ⟨s[s.length - 1], ?_, h.isGreatest hpos⟩
    rw [percentile_eq_atRank h hpos (by norm_num) (le_refl 100), hrank]
    exact atRank_natCast _
  corner hlen k hk := by
    have hle : (k : ℝ) ≤ (s.length - 1 : ℕ) := Nat.cast_le.mpr (Nat.le_sub_one_of_lt hk)
    rw [percentile_percentage h hlen (Nat.cast_nonneg k) hle]
    exact atRank_natCast hk
  between k hk t h0 h1 := by
    have hle : (k : ℝ) + t ≤ (s.length - 1 : ℕ) := by
      have hlast : ((k + 1 : ℕ) : ℝ) ≤ (s.length - 1 : ℕ) := by
        exact Nat.cast_le.mpr (Nat.le_sub_one_of_lt hk)
      push_cast at hlast
      linarith
    rw [percentile_percentage h (Nat.lt_of_le_of_lt (Nat.le_add_left 1 k) hk) (by positivity) hle]
    exact atRank_add hk h0 h1

/-- Percentiles interpolate between samples of neighbouring ranks and ascend. There is none without
samples or outside the range of percentages, and there is one in any other case. -/
theorem percentiles_interpolate (samples : List ℝ) :
    (∀ p, percentile samples p = none ↔ samples = [] ∨ ¬(0 ≤ p ∧ p ≤ 100)) ∧
      (samples ≠ [] → ∃ s, Interpolated samples s) := by
  have hinterpolated (hne : samples ≠ []) : Interpolated samples (ascending samples) := by
    refine (ascends_ascending samples).interpolated ?_
    rw [(ascends_ascending samples).length_eq]
    exact List.length_pos_iff.mpr hne
  refine ⟨fun p => ⟨fun hnone => ?_, ?_⟩, fun hne => ⟨_, hinterpolated hne⟩⟩
  · by_contra hsome
    obtain ⟨hne, hrange⟩ := not_or.mp hsome
    obtain ⟨h0, h100⟩ := not_not.mp hrange
    obtain ⟨_, _, hvalue⟩ := (hinterpolated hne).value p h0 h100
    rw [hnone] at hvalue
    cases hvalue
  · rintro (rfl | houtside)
    · rfl
    · exact percentile_of_outside houtside

/-! ### An example -/

theorem ascends_two : Ascends [20, 10] ([10, 20] : List ℝ) where
  perm := .swap 20 10 []
  pairwise := by
    rw [List.pairwise_pair]
    norm_num

/-- A quarter of the way from the lesser of two samples to the greater one. -/
theorem percentiles_interpolate_two :
    ([20, 10] : List ℝ) ≠ [] ∧ percentile ([20, 10] : List ℝ) 25 = some 12.5 := by
  have hne : ([20, 10] : List ℝ) ≠ [] := List.cons_ne_nil _ _
  obtain ⟨s, hs⟩ := (percentiles_interpolate [20, 10]).2 hne
  obtain rfl : s = [10, 20] := hs.ascends.ascending_eq.symm.trans ascends_two.ascending_eq
  refine ⟨hne, ?_⟩
  have hquarter := hs.between 0 (by simp) 0.25 (by norm_num) (by norm_num)
  norm_num at hquarter ⊢
  exact hquarter

end PaintBench.Stats
