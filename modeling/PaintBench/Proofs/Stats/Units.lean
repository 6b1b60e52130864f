import PaintBench.Proofs.Stats.Description

/-!
# Order and units of samples

Exact samples are put in one and the same order, whatever order they come in (`ascending_perm`), so
statistics do not depend on it (`percentile_perm`, `summarizeExactly_perm`).

A change of unit takes a sample `x` to `a * x + b`. With a positive `a` it keeps the order
(`Ascends.map`), and it takes the line through some samples to the line through the converted ones
(`atRank_map`). Deviations do not see the offset (`sampleDeviation_map`). So the statistics of
converted samples are the converted statistics (`statistics_follow_units`).
-/

namespace PaintBench.Stats

variable {samples samples' s l : List ℝ} {a b p : ℝ} {log exp : ℝ → ℝ}

/-! ## Any order -/

theorem ascending_perm (h : samples.Perm samples') : ascending samples = ascending samples' :=
  Ascends.ascending_eq
    { perm := (ascends_ascending samples').perm.trans h.symm
      pairwise := (ascends_ascending samples').pairwise }

theorem percentile_perm (h : samples.Perm samples') :
    percentile samples p = percentile samples' p := by
  have hempty : samples.isEmpty = samples'.isEmpty := by
    rw [Bool.eq_iff_iff, List.isEmpty_iff_length_eq_zero, List.isEmpty_iff_length_eq_zero,
      h.length_eq]
  rw [percentile, percentile, hempty, ascending_perm h]

/-- A summary looks at the samples in ascending order only. -/
theorem summarize_congr {α : Type} [Quantity α] {l l' : List α} (h : ascending l = ascending l') :
    summarize l = summarize l' := by
  rw [summarize, summarize, h]

theorem summarizeExactly_perm (h : samples.Perm samples') :
    summarizeExactly log exp samples = summarizeExactly log exp samples' :=
  @summarize_congr ℝ { (inferInstance : Quantity ℝ) with log, exp } _ _ (ascending_perm h)

/-! ## Other units -/

/-- A sample in another unit, `a` of which make up the old one, counted from `-b` on. -/
noncomputable def convert (a b x : ℝ) : ℝ :=
  a * x + b

theorem convert_mono (ha : 0 < a) : Monotone (convert a b) := by
  intro x y hxy
  unfold convert
  gcongr

theorem Ascends.map {f : ℝ → ℝ} (h : Ascends samples s) (hf : Monotone f) :
    Ascends (samples.map f) (s.map f) where
  perm := h.perm.map f
  pairwise := List.pairwise_map.mpr (h.pairwise.imp fun hxy => hf hxy)

/-- Between converted corners the line is converted. -/
theorem atRank_map (s : List ℝ) (r : ℝ) :
    atRank (s.map (convert a b)) r = (atRank s r).map (convert a b) := by
  simp only [atRank, List.getElem?_map]
  split_ifs
  · rfl
  · cases s[Quantity.floor r]? with
    | none => rfl
    | some x =>
      cases s[Quantity.floor r + 1]? with
      | none => rfl
      | some y =>
        simp only [Option.map_some, convert, Option.some.injEq]
        ring

theorem percentile_map (ha : 0 < a) :
    percentile (samples.map (convert a b)) p = (percentile samples p).map (convert a b) := by
  have hsorted := (ascends_ascending samples).map (convert_mono (b := b) ha) |>.ascending_eq
  simp only [percentile, List.isEmpty_map, hsorted]
  split_ifs
  · rfl
  · cases ascending samples with
    | nil => exact atRank_map [] _
    | cons x rest =>
      cases rest with
      | nil => rfl
      | cons y rest =>
        change atRank ((x :: y :: rest).map (convert a b)) (p / Quantity.ofNat 100 *
          Quantity.ofNat (((x :: y :: rest).map (convert a b)).length - 1)) = _
        rw [List.length_map, atRank_map]

theorem sum_map_convert (l : List ℝ) : (l.map (convert a b)).sum = a * l.sum + l.length * b := by
  induction l with
  | nil => simp
  | cons x l ih =>
    rw [List.map_cons, List.sum_cons, ih, List.sum_cons, List.length_cons, convert]
    push_cast
    ring

theorem mean_map (hpos : 0 < l.length) :
    (l.map (convert a b)).sum / (l.map (convert a b)).length = convert a b (l.sum / l.length) := by
  have hne : (l.length : ℝ) ≠ 0 := Nat.cast_ne_zero.mpr (Nat.ne_of_gt hpos)
  rw [sum_map_convert, List.length_map, convert]
  field_simp

/-- Deviations are converted without the offset. -/
theorem sampleDeviation_map (ha : 0 < a) (hpos : 0 < l.length) :
    sampleDeviation (l.map (convert a b)) = a * sampleDeviation l := by
  have hsquares : (l.map (convert a b)).map (fun x => (x - convert a b (l.sum / l.length)) ^ 2) =
      (l.map fun x => (x - l.sum / l.length) ^ 2).map (a ^ 2 * ·) := by
    rw [List.map_map, List.map_map]
    refine List.map_congr_left fun x _ => ?_
    simp only [Function.comp_apply, convert]
    ring
  rw [sampleDeviation, mean_map hpos, hsquares, List.sum_map_mul_left, List.map_id',
    List.length_map, mul_div_assoc, Real.sqrt_mul (sq_nonneg a), Real.sqrt_sq ha.le, sampleDeviation]

/-- Two summaries of the same samples, the second one in the unit that `convert a b` leads to. -/
structure Converted (a b : ℝ) (summary summary' : Summary ℝ) : Prop where
  count : summary'.count = summary.count
  min : summary'.min = convert a b summary.min
  max : summary'.max = convert a b summary.max
  mean : summary'.mean = convert a b summary.mean
  median : summary'.median = convert a b summary.median
  stdDev_sq : summary'.stdDev ^ 2 = a ^ 2 * summary.stdDev ^ 2

theorem exists_converted (log exp : ℝ → ℝ) (ha : 0 < a) (b : ℝ) (hne : samples ≠ []) :
    ∃ summary summary', summarizeExactly log exp samples = .ok (some summary) ∧
      summarizeExactly log exp (samples.map (convert a b)) = .ok (some summary') ∧
      Converted a b summary summary' := by
  have h := ascends_ascending samples
  generalize ascending samples = s at h
  have h' := h.map (convert_mono (b := b) ha)
  have hpos : 0 < s.length := h.length_eq ▸ List.length_pos_iff.mpr hne
  have hpos' : 0 < (s.map (convert a b)).length := by rwa [List.length_map]
  obtain ⟨m, hm, -⟩ := exists_median h hpos (h.isLeast hpos) (h.isGreatest hpos)
  have hm' : median (samples.map (convert a b)) = some (convert a b m) := by
    rw [median, percentile_map ha, ← median, hm]
    rfl
  refine ⟨_, _, summarizeExactly_eq h hpos (h.isLeast hpos) (h.isGreatest hpos) hm,
    summarizeExactly_eq h' hpos' (h'.isLeast hpos') (h'.isGreatest hpos') hm', ?_⟩
  exact
    { count := List.length_map _
      min := List.getElem_map _
      max := by simp only [List.getElem_map, List.length_map]
      mean := mean_map hpos
      median := rfl
      stdDev_sq := by
        dsimp only
        rw [sampleDeviation_map ha hpos, mul_pow] }

/-- Without rounding, statistics do not depend on the order of the samples and follow a change of
unit, however logarithms and exponentials are computed. -/
theorem statistics_follow_units (log exp : ℝ → ℝ) (samples : List ℝ) (hne : samples ≠ []) :
    ∃ summary, summarizeExactly log exp samples = .ok (some summary) ∧
      (∀ samples', samples'.Perm samples →
        summarizeExactly log exp samples' = .ok (some summary) ∧
        ∀ p, percentile samples' p = percentile samples p) ∧
      ∀ a b, 0 < a →
        (∃ summary', summarizeExactly log exp (samples.map (convert a b)) = .ok (some summary') ∧
          Converted a b summary summary') ∧
        ∀ p, percentile (samples.map (convert a b)) p =
          (percentile samples p).map (convert a b) := by
  obtain ⟨summary, -, hsummary, -, -⟩ := exists_converted log exp zero_lt_one 0 hne
  refine ⟨summary, hsummary, fun samples' h => ?_, fun a b ha => ?_⟩
  · exact ⟨(summarizeExactly_perm h).trans hsummary, fun p => percentile_perm h⟩
  · obtain ⟨summary₀, summary', hsummary₀, hsummary', hconverted⟩ :=
      exists_converted log exp ha b hne
    cases hsummary.symm.trans hsummary₀
    exact ⟨⟨summary', hsummary', hconverted⟩, fun p => percentile_map ha⟩

/-! ### An example -/

/-- Two samples in seconds, in either order, and in milliseconds of a clock that is five ahead. -/
theorem statistics_follow_units_two : ([20, 10] : List ℝ) ≠ [] ∧
    ∃ summary summary', summarizeExactly (fun _ => 0) (fun _ => 0) [10, 20] = .ok (some summary) ∧
      summarizeExactly (fun _ => 0) (fun _ => 0) [20005, 10005] = .ok (some summary') ∧
      summary'.mean = 1000 * summary.mean + 5 ∧
      summary'.stdDev ^ 2 = 1000 ^ 2 * summary.stdDev ^ 2 := by
  have hne : ([20, 10] : List ℝ) ≠ [] := List.cons_ne_nil _ _
  obtain ⟨summary, -, hperm, hunits⟩ :=
    statistics_follow_units (fun _ => 0) (fun _ => 0) [20, 10] hne
  obtain ⟨⟨summary', hsummary', hconverted⟩, -⟩ := hunits 1000 5 (by norm_num)
  have hclock : ([20, 10] : List ℝ).map (convert 1000 5) = [20005, 10005] := by norm_num [convert]
  rw [hclock] at hsummary'
  exact ⟨hne, summary, summary', (hperm [10, 20] (.swap 20 10 [])).1, hsummary', hconverted.mean,
    hconverted.stdDev_sq⟩

end PaintBench.Stats
