import Mathlib.Data.List.TakeWhile
import PaintBench.Proofs.Quantity.Exact
import PaintBench.Proofs.Trace.Durations

/-!
# Durations of chronological traces

In exact numbers, the duration of a window cannot fail its checks if the events of the trace
are in the order of their times and clicks and paints do not last a negative time: every
paint after the click starts after it, the last paint ends when some event of the window
does, and the window starts before its click. So `durations_within_windows` holds whatever
else a trace contains, and also for paints that outlast the finished marker.
-/

namespace PaintBench.Trace

/-- The time that an event lasts is not negative. -/
def Lasting : Event ℝ → Prop
  | .click _ dur | .paint _ dur => 0 ≤ dur
  | .gc .. | .navigationStart _ | .marker .. => True

/-- Such an event ends after it has started. -/
theorem ts_le_finish {e : Event ℝ} (h : Lasting e) : e.ts ≤ e.finish := by
  cases e with
  | click ts dur => exact le_add_of_nonneg_right h
  | paint ts dur => exact le_add_of_nonneg_right h
  | gc ts heap => exact le_refl ts
  | navigationStart ts => exact le_refl ts
  | marker phase ts => exact le_refl ts

/-- A window that has any event starts with the marker of its run phase. -/
theorem starts_with_run {α : Type} {events window : List (Event α)} {e : Event α}
    (h : window ∈ runWindows events) (he : window.head? = some e) :
    ∃ start rest, window = .marker .run start :: rest := by
  obtain ⟨segment, -, rfl⟩ := List.mem_map.mp h
  have hrun := List.head?_dropWhile_not (·.phase? != some .run) segment
  obtain ⟨rest, hrest⟩ := List.head?_eq_some_iff.mp he
  rw [he] at hrun
  rw [hrest]
  cases e with
  | marker phase ts =>
    obtain rfl : phase = .run := by simpa [Event.phase?] using hrun
    exact ⟨ts, rest, rfl⟩
  | _ => cases hrun

variable {window : List (Event ℝ)}

/-- Paints from the first click on start after it. -/
theorem click_ts_le {click paint : Event ℝ} (hsorted : window.Pairwise (·.ts ≤ ·.ts))
    (hclick : window.find? Event.isClick = some click) (hpaint : paint ∈ paintsAfterClick window) :
    click.ts ≤ paint.ts := by
  rw [List.find?_eq_head?_dropWhile_not] at hclick
  obtain ⟨after, hafter⟩ := List.head?_eq_some_iff.mp hclick
  have hmem : paint ∈ click :: after := hafter ▸ (List.mem_filter.mp hpaint).1
  have hrest : (click :: after).Pairwise (·.ts ≤ ·.ts) :=
    hafter ▸ hsorted.sublist (List.dropWhile_sublist _)
  rcases List.mem_cons.mp hmem with rfl | hlater
  · exact le_refl _
  · exact List.rel_of_pairwise_cons hrest hlater

/-- What a chronological window measures passes the checks. -/
theorem Measures.within {duration span : ℝ} (h : Measures window duration span)
    (hsorted : window.Pairwise (·.ts ≤ ·.ts)) (hlasting : ∀ e ∈ window, Lasting e) :
    0 ≤ duration ∧ duration ≤ span := by
  obtain ⟨first, click, lastPaint, finish, hfirst, hclick, hlast, hfinish, rfl, rfl⟩ := h
  obtain ⟨paint, hpaint, rfl⟩ := List.mem_map.mp hlast.1
  have hmem : paint ∈ window := (paintsAfterClick_sublist window).subset hpaint
  have hafter : click.ts ≤ paint.finish :=
    (click_ts_le hsorted hclick hpaint).trans (ts_le_finish (hlasting paint hmem))
  have hlatest : paint.finish ≤ finish := hfinish.2 (List.mem_map_of_mem hmem)
  have hstart : first.ts ≤ click.ts := by
    obtain ⟨rest, rfl⟩ := List.head?_eq_some_iff.mp hfirst
    rcases List.mem_cons.mp (List.mem_of_find?_eq_some hclick) with rfl | hrest
    · exact le_refl _
    · exact List.rel_of_pairwise_cons hsorted hrest
  have hthousand : (0 : ℝ) ≤ Quantity.ofNat 1000 := Nat.cast_nonneg 1000
  constructor
  · exact div_nonneg (sub_nonneg.mpr hafter) hthousand
  · exact div_le_div_of_nonneg_right (sub_le_sub hlatest hstart) hthousand

/-- Only clicks and paints may be wrong with a window that measures what it should. -/
theorem Offends.clicks_or_paints {clicks index : Nat} {error : Soundness ℝ}
    (h : Offends clicks index window error)
    (hwithin : ∀ duration span, Measures window duration span → 0 ≤ duration ∧ duration ≤ span) :
    (∃ found, error = .clickCount index clicks found) ∨ error = .noPaint index := by
  cases h with
  | clickCount _ => exact Or.inl ⟨_, rfl⟩
  | noPaint _ _ => exact Or.inr rfl
  | negativeDuration _ hmeasures hnegative =>
    rw [Quantity.ofNat_real, Nat.cast_zero] at hnegative
    exact absurd hnegative (not_lt_of_ge (hwithin _ _ hmeasures).1)
  | exceedsWindow _ hmeasures _ hexceeds =>
    exact absurd hexceeds (not_lt_of_ge (hwithin _ _ hmeasures).2)

theorem ends_le_self (events : List (Event ℝ)) :
    ∀ window ∈ runWindows events, ∀ x ∈ window.map Event.finish, x ≤ x :=
  fun _ _ x _ => le_refl x

section Chronological

variable {events : List (Event ℝ)} (hsorted : events.Pairwise (·.ts ≤ ·.ts))
  (hlasting : ∀ e ∈ events, Lasting e)

include hsorted hlasting

theorem within_of_mem_runWindows (hwindow : window ∈ runWindows events) {duration span : ℝ}
    (h : Measures window duration span) : 0 ≤ duration ∧ duration ≤ span := by
  have hpart := sublist_of_mem_runWindows hwindow
  exact h.within (hsorted.sublist hpart) fun e he => hlasting e (hpart.subset he)

/-- A chronological trace is accepted if every window has its clicks, and paints after them. -/
theorem exists_samples_of_painted {limits : Nat × Nat}
    (hclicked : ∀ window ∈ runWindows events, Clicked limits.1 window)
    (hpainted : ∀ window ∈ runWindows events, paintsAfterClick window ≠ []) :
    ∃ samples, cpuDurations events (runWindows events).length limits = .ok samples := by
  rcases cpuDurations_cases (ends_le_self events) (runWindows events).length limits with
    ⟨samples, heq, -⟩ | ⟨error, -, ⟨before, window, after, hsplit, -, hoffends⟩ | ⟨-, hcount, -⟩⟩
  · exact ⟨samples, heq⟩
  · have hwindow : window ∈ runWindows events := by simp [hsplit]
    rcases hoffends.clicks_or_paints fun duration span =>
      within_of_mem_runWindows hsorted hlasting hwindow with ⟨found, rfl⟩ | rfl
    · cases hoffends with
      | clickCount hclicks => exact absurd (hclicked window hwindow) hclicks
    · cases hoffends with
      | noPaint _ hnone => exact absurd hnone (hpainted window hwindow)
  · exact absurd rfl hcount

end Chronological

/-- In exact numbers, a chronological trace is never rejected for a negative duration or one
that exceeds its window. The durations that are accepted lie between zero and the span of
their windows, which start with their run markers. -/
theorem durations_within_windows {events : List (Event ℝ)}
    (hsorted : events.Pairwise (·.ts ≤ ·.ts)) (hlasting : ∀ e ∈ events, Lasting e)
    (expected : Nat) (limits : Nat × Nat) :
    (∀ index duration,
      cpuDurations events expected limits ≠ .error (.negativeDuration index duration)) ∧
    (∀ index duration span,
      cpuDurations events expected limits ≠ .error (.exceedsWindow index duration span)) ∧
    ∀ samples, cpuDurations events expected limits = .ok samples →
      List.Forall₂ (fun window duration =>
        (∃ start rest, window = .marker .run start :: rest) ∧
        ∃ span, Measures window duration span ∧ 0 ≤ duration ∧ duration ≤ span)
        (runWindows events) samples.durations := by
  have hwithin : ∀ window ∈ runWindows events, ∀ duration span, Measures window duration span →
      0 ≤ duration ∧ duration ≤ span :=
    fun window hwindow duration span => within_of_mem_runWindows hsorted hlasting hwindow
  rcases cpuDurations_cases (ends_le_self events) expected limits with
    ⟨samples, heq, -, -, hmeasured, -⟩ | ⟨error, heq, hwhy⟩
  · rw [heq]
    refine ⟨nofun, nofun, ?_⟩
    rintro _ ⟨⟩
    have hmem := (List.forall₂_and_left _ _).mpr ⟨fun window hwindow => hwindow, hmeasured⟩
    refine hmem.imp fun window duration h => ?_
    obtain ⟨hwindow, span, hmeasures⟩ := h
    refine ⟨?_, span, hmeasures, hwithin window hwindow duration span hmeasures⟩
    obtain ⟨first, _, _, _, hfirst, -⟩ := hmeasures
    exact starts_with_run hwindow hfirst
  · rw [heq]
    have herror : (∃ index clicks found, error = .clickCount index clicks found) ∨
        (∃ index, error = .noPaint index) ∨
        ∃ actual, error = .sampleCount "cpu" expected actual := by
      rcases hwhy with ⟨before, window, after, hsplit, -, hoffends⟩ | ⟨-, -, h⟩
      · rcases hoffends.clicks_or_paints (hwithin window (by simp [hsplit])) with ⟨found, h⟩ | h
        · exact Or.inl ⟨_, _, found, h⟩
        · exact Or.inr (Or.inl ⟨_, h⟩)
      · exact Or.inr (Or.inr ⟨_, h⟩)
    rcases herror with ⟨_, _, _, rfl⟩ | ⟨_, rfl⟩ | ⟨_, rfl⟩ <;> exact ⟨nofun, nofun, nofun⟩

/-- The paint outlasts the finished marker and starts before the click ends; still the trace is
accepted. -/
theorem durations_within_one_window :
    [Event.marker .init (0 : ℝ), .marker .run 1, .click 10 5, .paint 12 70,
      .marker .finished 40].Pairwise (·.ts ≤ ·.ts) ∧
    (∀ e ∈ [Event.marker .init (0 : ℝ), .marker .run 1, .click 10 5, .paint 12 70,
      .marker .finished 40], Lasting e) ∧
    ∃ samples duration, cpuDurations [Event.marker .init (0 : ℝ), .marker .run 1, .click 10 5,
        .paint 12 70, .marker .finished 40] 1 (1, 2) = .ok samples ∧
      samples.durations = [duration] ∧ 0 ≤ duration := by
  have hsorted : [Event.marker .init (0 : ℝ), .marker .run 1, .click 10 5, .paint 12 70,
      .marker .finished 40].Pairwise (·.ts ≤ ·.ts) := by
    norm_num [Event.ts]
  have hlasting : ∀ e ∈ [Event.marker .init (0 : ℝ), .marker .run 1, .click 10 5, .paint 12 70,
      .marker .finished 40], Lasting e := by
    simp [Lasting]
  have hwindow : runWindows [Event.marker .init (0 : ℝ), .marker .run 1, .click 10 5,
      .paint 12 70, .marker .finished 40] = [[.marker .run 1, .click 10 5, .paint 12 70]] := rfl
  obtain ⟨samples, hsamples⟩ : ∃ samples, cpuDurations [Event.marker .init (0 : ℝ),
      .marker .run 1, .click 10 5, .paint 12 70, .marker .finished 40] 1 (1, 2) = .ok samples := by
    refine exists_samples_of_painted hsorted hlasting ?_ ?_ <;>
      rw [hwindow, List.forall_mem_singleton]
    · exact ⟨rfl, le_refl 1⟩
    · exact List.cons_ne_nil _ _
  have h := (durations_within_windows hsorted hlasting 1 (1, 2)).2.2 samples hsamples
  rw [hwindow] at h
  cases hdurations : samples.durations with
  | nil => rw [hdurations] at h; cases h
  | cons duration others =>
    rw [hdurations] at h
    cases h with
    | cons hduration hothers =>
      obtain ⟨-, span, -, hpositive, -⟩ := hduration
      cases hothers
      exact ⟨hsorted, hlasting, samples, duration, hsamples, hdurations, hpositive⟩

end PaintBench.Trace
