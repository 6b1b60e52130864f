import Mathlib.Algebra.Order.BigOperators.Group.List
import PaintBench.Proofs.Stats.Percentile

/-!
# Summaries of exact samples

Without rounding, the statistics of samples are the ones of the textbook (`Describes`): the mean is
the sum over the count, which forcing it into the range of the samples does not change
(`clamp_eq_self`), and the median is what stands in the middle (`median_of_odd`, `median_of_even`).
Only the geometric mean depends on how logarithms and exponentials are computed. It is forced into
the range whatever these are (`clamp_mem`), so `summarizeExactly` takes any two functions.
-/

namespace PaintBench

namespace Quantity

variable {l : List ℝ} {low high a : ℝ}

theorem sum_real (l : List ℝ) : Quantity.sum l = l.sum := by
  have hfold (l : List ℝ) (a : ℝ) : l.foldl (· + ·) a = a + l.sum := by
    induction l generalizing a with
    | nil => simp
    | cons b l ih => rw [List.foldl_cons, ih, List.sum_cons, add_assoc]
  cases l with
  | nil => exact Nat.cast_zero
  | cons b l => exact hfold l b

theorem clamp_eq_self (hlow : low ≤ a) (hhigh : a ≤ high) : clamp low high a = a :=
  (if_neg (not_lt.mpr hlow)).trans (if_neg (not_lt.mpr hhigh))

/-- Whatever is forced into a range lies in it. -/
theorem clamp_mem (h : low ≤ high) : low ≤ clamp low high a ∧ clamp low high a ≤ high := by
  rw [clamp]
  split_ifs with hlow hhigh
  · exact ⟨le_refl low, h⟩
  · exact ⟨h, le_refl high⟩
  · exact ⟨not_lt.mp hlow, not_lt.mp hhigh⟩

end Quantity

namespace Stats

variable {samples s l : List ℝ} {a c min max : ℝ} {log exp : ℝ → ℝ}

/-- The statistics of exact samples, where logarithms and exponentials may be computed in any
way. -/
noncomputable def summarizeExactly (log exp : ℝ → ℝ) (samples : List ℝ) :
    Except (Unordered ℝ) (Option (Summary ℝ)) :=
  letI : Quantity ℝ := { (inferInstance : Quantity ℝ) with log, exp }
  summarize samples

theorem summarizeExactly_log_exp : summarizeExactly Real.log Real.exp = summarize :=
  rfl

/-! ## Means and deviations -/

theorem le_mean (hpos : 0 < l.length) (h : ∀ x ∈ l, a ≤ x) : a ≤ l.sum / l.length := by
  rw [le_div_iff₀ (Nat.cast_pos.mpr hpos), mul_comm, ← nsmul_eq_mul]
  exact List.card_nsmul_le_sum l a h

theorem mean_le (hpos : 0 < l.length) (h : ∀ x ∈ l, x ≤ a) : l.sum / l.length ≤ a := by
  rw [div_le_iff₀ (Nat.cast_pos.mpr hpos), mul_comm, ← nsmul_eq_mul]
  exact List.sum_le_card_nsmul l a h

theorem squaredDeviations_real (c : ℝ) (l : List ℝ) :
    squaredDeviations c l = (l.map fun x => (x - c) ^ 2).sum := by
  rw [squaredDeviations, Quantity.sum_real]
  simp only [sq]

theorem squaredDeviations_nonneg : 0 ≤ (l.map fun x => (x - c) ^ 2).sum :=
  List.sum_nonneg (List.forall_mem_map.mpr fun x _ => sq_nonneg (x - c))

/-- Nothing deviates from a point if there is nothing but the point. -/
theorem squaredDeviations_eq_zero_iff :
    (l.map fun x => (x - c) ^ 2).sum = 0 ↔ ∀ x ∈ l, x = c := by
  constructor
  · intro hsum x hx
    have hzero := List.all_zero_of_le_zero_le_of_sum_eq_zero
      (List.forall_mem_map.mpr fun x _ => sq_nonneg (x - c)) hsum (List.mem_map_of_mem hx)
    exact sub_eq_zero.mp (pow_eq_zero_iff two_ne_zero |>.mp hzero)
  · intro h
    rw [List.map_congr_left fun x hx => by rw [h x hx, sub_self, zero_pow two_ne_zero],
      List.map_const', List.sum_replicate, smul_zero]

/-- Nothing deviates from the mean if all samples are equal. -/
theorem forall_eq_mean_iff (hpos : 0 < l.length) :
    (∀ a ∈ l, a = l.sum / l.length) ↔ ∀ a ∈ l, ∀ b ∈ l, a = b := by
  constructor
  · intro h a ha b hb
    rw [h a ha, h b hb]
  · intro h a ha
    exact le_antisymm (le_mean hpos fun b hb => (h a ha b hb).le)
      (mean_le hpos fun b hb => (h b hb a ha).le)

/-- The standard deviation of a sample. -/
noncomputable def sampleDeviation (l : List ℝ) : ℝ :=
  √((l.map fun x => (x - l.sum / l.length) ^ 2).sum / (l.length - 1))

theorem sampleDeviation_perm {l' : List ℝ} (h : l.Perm l') :
    sampleDeviation l = sampleDeviation l' := by
  rw [sampleDeviation, sampleDeviation, h.sum_eq, h.length_eq, (h.map _).sum_eq]

theorem sampleDeviation_eq_zero_iff (hpos : 0 < l.length) :
    sampleDeviation l = 0 ↔ (∀ a ∈ l, ∀ b ∈ l, a = b) ∨ l.length = 1 := by
  have hgap : (l.length : ℝ) - 1 = (l.length - 1 : ℕ) := (Nat.cast_pred hpos).symm
  have hone : l.length - 1 = 0 ↔ l.length = 1 := by omega
  rw [sampleDeviation, hgap,
    Real.sqrt_eq_zero (div_nonneg squaredDeviations_nonneg (Nat.cast_nonneg _)), div_eq_zero_iff,
    squaredDeviations_eq_zero_iff, forall_eq_mean_iff hpos, Nat.cast_eq_zero, hone]

/-- The squared deviation is that of a sample, over one less than the count. -/
theorem sampleDeviation_sq (hpos : 0 < l.length) : sampleDeviation l ^ 2 * (l.length - 1) =
    (l.map fun x => (x - l.sum / l.length) ^ 2).sum := by
  have hgap : (l.length : ℝ) - 1 = (l.length - 1 : ℕ) := (Nat.cast_pred hpos).symm
  rw [sampleDeviation, hgap, Real.sq_sqrt (div_nonneg squaredDeviations_nonneg (Nat.cast_nonneg _))]
  rcases Nat.eq_or_lt_of_le (Nat.succ_le_of_lt hpos) with hone | hlen
  · -- the only sample is the mean
    obtain ⟨a, rfl⟩ := List.length_eq_one_iff.mp hone.symm
    simp
  · exact div_mul_cancel₀ _ (Nat.cast_ne_zero.mpr (Nat.sub_ne_zero_of_lt hlen))

/-! ## The middle of the samples -/

theorem median_eq_atRank (h : Ascends samples s) (hpos : 0 < s.length) :
    median samples = atRank s (rankOf s.length 50) := by
  have hfifty : (Quantity.ofNat 50 : ℝ) = 50 := by norm_num [Quantity.ofNat_real]
  rw [median, hfifty]
  exact percentile_eq_atRank h hpos (by norm_num) (by norm_num)

/-- Of an odd number of samples one stands in the middle. -/
theorem median_of_odd (h : Ascends samples s) {k : ℕ} (hk : s.length = 2 * k + 1) :
    median samples = s[k]? := by
  have hrank : rankOf s.length 50 = k := by
    rw [rankOf, hk, Nat.add_sub_cancel]
    push_cast
    ring
  have hmiddle : k < s.length := by omega
  rw [median_eq_atRank h (Nat.zero_lt_of_lt hmiddle), hrank, atRank_natCast hmiddle,
    List.getElem?_eq_getElem hmiddle]

/-- Of an even number of samples two stand in the middle. -/
theorem median_of_even (h : Ascends samples s) {k : ℕ} (hk : s.length = 2 * k + 2) :
    ∃ a b, s[k]? = some a ∧ s[k + 1]? = some b ∧ median samples = some ((a + b) / 2) := by
  have hrank : rankOf s.length 50 = k + 1 / 2 := by
    rw [rankOf, hk, show 2 * k + 2 - 1 = 2 * k + 1 by omega]
    push_cast
    ring
  have hupper : k + 1 < s.length := by omega
  have hlower : k < s.length := Nat.lt_of_succ_lt hupper
  refine ⟨s[k], s[k + 1], List.getElem?_eq_getElem hlower, List.getElem?_eq_getElem hupper, ?_⟩
  rw [median_eq_atRank h (Nat.zero_lt_of_lt hlower), hrank,
    atRank_add hupper (by norm_num) (by norm_num)]
  congr 1
  ring

/-- The median lies in the range of the samples. -/
theorem exists_median (h : Ascends samples s) (hpos : 0 < s.length)
    (hmin : IsLeast {a | a ∈ samples} min) (hmax : IsGreatest {a | a ∈ samples} max) :
    ∃ m, median samples = some m ∧ min ≤ m ∧ m ≤ max := by
  obtain ⟨m, hm, hleast, hgreatest⟩ := atRank_mem h hpos (rankOf_nonneg (n := s.length)
    (by norm_num : (0 : ℝ) ≤ 50)) (rankOf_le (by norm_num))
  obtain rfl := hmin.unique (h.isLeast hpos)
  obtain rfl := hmax.unique (h.isGreatest hpos)
  exact ⟨m, (median_eq_atRank h hpos).trans hm, hleast, hgreatest⟩

/-! ## Summaries -/

/-- The summary of samples, from the samples in ascending order. -/
theorem summarize_eq {α : Type} [Quantity α] {samples sorted : List α} {min max : α}
    (hsorted : ascending samples = sorted) (hmin : sorted.head? = some min)
    (hmax : sorted.getLast? = some max) (hle : min ≤ max) :
    summarize samples =
      let mean := Quantity.clamp min max (Quantity.sum sorted / Quantity.ofNat sorted.length)
      .ok (some {
        count := sorted.length, min, max, mean
        median := (median sorted).getD min
        geometricMean :=
          if Quantity.ofNat 0 < min then
            Quantity.clamp min max
              (Quantity.exp (Quantity.sum (sorted.map Quantity.log) / Quantity.ofNat sorted.length))
          else Quantity.ofNat 0
        stdDev :=
          if 1 < sorted.length then
            Quantity.sqrt (squaredDeviations mean sorted / Quantity.ofNat (sorted.length - 1))
          else Quantity.ofNat 0 }) := by
  rw [summarize, hsorted]
  simp only [hmin, hmax, summarizeSorted, if_pos hle]
  rfl

theorem summarizeExactly_eq (h : Ascends samples s) (hpos : 0 < s.length)
    (hmin : IsLeast {a | a ∈ samples} min) (hmax : IsGreatest {a | a ∈ samples} max) {m : ℝ}
    (hm : median samples = some m) :
    summarizeExactly log exp samples = .ok (some {
      count := s.length, min, max
      mean := s.sum / s.length
      median := m
      geometricMean :=
        if 0 < min then Quantity.clamp min max (exp ((s.map log).sum / s.length)) else 0
      stdDev := sampleDeviation s }) := by
  have hhead : s.head? = some min := by
    rw [hmin.unique (h.isLeast hpos), List.head?_eq_getElem?, List.getElem?_eq_getElem hpos]
  have hlast : s.getLast? = some max := by
    rw [hmax.unique (h.isGreatest hpos), List.getLast?_eq_getElem?, List.getElem?_eq_getElem]
  have hmean : Quantity.clamp min max (s.sum / s.length) = s.sum / s.length := by
    refine Quantity.clamp_eq_self (le_mean hpos fun x hx => ?_) (mean_le hpos fun x hx => ?_)
    · exact hmin.2 (h.perm.mem_iff.mp hx)
    · exact hmax.2 (h.perm.mem_iff.mp hx)
  have hmedian : median s = some m := by
    rw [median_eq_atRank h.self hpos, ← median_eq_atRank h hpos, hm]
  refine (@summarize_eq ℝ { (inferInstance : Quantity ℝ) with log, exp } samples s min max
    h.ascending_eq hhead hlast (hmax.2 hmin.1)).trans ?_
  -- nothing else in these statistics takes logarithms or exponentials
  change Except.ok (some (Summary.mk s.length min max
    (Quantity.clamp min max (Quantity.sum s / s.length)) ((median s).getD min)
    (if (Quantity.ofNat 0 : ℝ) < min then
      Quantity.clamp min max (exp (Quantity.sum (s.map log) / s.length))
    else Quantity.ofNat 0)
    (if 1 < s.length then
      √(squaredDeviations (Quantity.clamp min max (Quantity.sum s / s.length)) s /
        (s.length - 1 : ℕ))
    else Quantity.ofNat 0))) = _
  rw [Quantity.sum_real, Quantity.sum_real, hmean, hmedian, squaredDeviations_real,
    Quantity.ofNat_real, Nat.cast_zero, Nat.cast_pred hpos]
  congr 3
  split_ifs with hlen
  · rfl
  · have hone : s.length = 1 := by omega
    exact ((sampleDeviation_eq_zero_iff hpos).mpr (Or.inr hone)).symm

/-- A summary tells what the textbook says about samples, which are `s` in ascending order. -/
structure Describes (samples s : List ℝ) (summary : Summary ℝ) : Prop where
  ascends : Ascends samples s
  count : summary.count = samples.length
  min : IsLeast {a | a ∈ samples} summary.min
  max : IsGreatest {a | a ∈ samples} summary.max
  mean : summary.mean = samples.sum / samples.length
  mean_mem : summary.min ≤ summary.mean ∧ summary.mean ≤ summary.max
  median : median samples = some summary.median
  median_of_odd : ∀ k, s.length = 2 * k + 1 → s[k]? = some summary.median
  median_of_even : ∀ k, s.length = 2 * k + 2 →
    ∃ a b, s[k]? = some a ∧ s[k + 1]? = some b ∧ summary.median = (a + b) / 2
  median_mem : summary.min ≤ summary.median ∧ summary.median ≤ summary.max
  stdDev_nonneg : 0 ≤ summary.stdDev
  stdDev_sq : summary.stdDev ^ 2 * (summary.count - 1) =
    (samples.map fun a => (a - summary.mean) ^ 2).sum
  stdDev_eq_zero_iff : summary.stdDev = 0 ↔
    (∀ a ∈ samples, ∀ b ∈ samples, a = b) ∨ samples.length = 1
  geometricMean_eq_zero : (∃ a ∈ samples, a ≤ 0) → summary.geometricMean = 0
  geometricMean_mem : (∀ a ∈ samples, 0 < a) →
    summary.min ≤ summary.geometricMean ∧ summary.geometricMean ≤ summary.max

/-- Without rounding, samples have a summary, and it is the one of the textbook, however
logarithms and exponentials are computed. -/
theorem summaries_describe (log exp : ℝ → ℝ) (samples : List ℝ) (hne : samples ≠ []) :
    ∃ s summary, summarizeExactly log exp samples = .ok (some summary) ∧
      Describes samples s summary := by
  have h := ascends_ascending samples
  generalize ascending samples = s at h
  have hpos : 0 < s.length := h.length_eq ▸ List.length_pos_iff.mpr hne
  have hmin := h.isLeast hpos
  have hmax := h.isGreatest hpos
  obtain ⟨m, hm, hmedian⟩ := exists_median h hpos hmin hmax
  have hmean : s.sum / s.length = samples.sum / samples.length := by
    rw [h.perm.sum_eq, h.length_eq]
  refine ⟨s, _, summarizeExactly_eq h hpos hmin hmax hm, ?_⟩
  refine
    { ascends := h
      count := h.length_eq
      min := hmin
      max := hmax
      mean := hmean
      mean_mem := ⟨le_mean hpos fun a ha => hmin.2 (h.perm.mem_iff.mp ha),
        mean_le hpos fun a ha => hmax.2 (h.perm.mem_iff.mp ha)⟩
      median := hm
      median_of_odd := fun k hk => (median_of_odd h hk).symm.trans hm
      median_of_even := fun k hk => ?_
      median_mem := hmedian
      stdDev_nonneg := Real.sqrt_nonneg _
      stdDev_sq := (sampleDeviation_sq hpos).trans (h.perm.map _).sum_eq
      stdDev_eq_zero_iff := ?_
      geometricMean_eq_zero := ?_
      geometricMean_mem := fun hall => ?_ }
  · obtain ⟨a, b, ha, hb, hab⟩ := median_of_even h hk
    exact ⟨a, b, ha, hb, Option.some.inj (hm.symm.trans hab)⟩
  · rw [sampleDeviation_perm h.perm]
    exact sampleDeviation_eq_zero_iff (h.length_eq ▸ hpos)
  · rintro ⟨a, ha, hnonpos⟩
    exact if_neg (not_lt.mpr ((hmin.2 ha).trans hnonpos))
  · dsimp only
    rw [if_pos (hall _ hmin.1)]
    exact Quantity.clamp_mem (hmax.2 hmin.1)

/-! ### An example -/

/-- A summary of two samples, where the exponential is far out of their range. -/
theorem summaries_describe_two : ([20, 10] : List ℝ) ≠ [] ∧
    ∃ summary, summarizeExactly (fun _ => 0) (fun _ => 1000) [20, 10] = .ok (some summary) ∧
      summary.mean = 15 ∧ summary.median = 15 ∧ summary.geometricMean ≤ 20 := by
  have hne : ([20, 10] : List ℝ) ≠ [] := List.cons_ne_nil _ _
  obtain ⟨s, summary, hsummary, h⟩ :=
    summaries_describe (fun _ => 0) (fun _ => 1000) [20, 10] hne
  obtain rfl : s = [10, 20] := h.ascends.ascending_eq.symm.trans ascends_two.ascending_eq
  obtain ⟨a, b, ha, hb, hmedian⟩ := h.median_of_even 0 rfl
  obtain rfl := Option.some.inj ha
  obtain rfl := Option.some.inj hb
  have hmax : summary.max ≤ 20 := by
    rcases List.mem_pair.mp h.max.1 with hmax | hmax
    · exact hmax.le
    · rw [hmax]
      norm_num
  have hgeometric := h.geometricMean_mem fun a ha => by
    rcases List.mem_pair.mp ha with rfl | rfl <;> norm_num
  refine ⟨hne, summary, hsummary, ?_, ?_, hgeometric.2.trans hmax⟩
  · rw [h.mean]
    norm_num
  · rw [hmedian]
    norm_num

end Stats

end PaintBench
