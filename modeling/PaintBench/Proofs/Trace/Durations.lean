import Mathlib.Data.List.Forall2
import PaintBench.Proofs.Quantity.Binary64
import PaintBench.Proofs.Result
import PaintBench.Trace.Window

/-!
# Which traces have durations

A window measures a duration, from its first click to the greatest end of a paint after it,
and a span, from its first event to the greatest end of any. `Sound` is what a window has
to be like, and `Offends` is what is found wrong with it otherwise, in the order of the
checks.

`windowDuration_spec` says this of one window. Of all windows of a trace, the first one that
offends decides; this is `measureWindows_spec` by induction on the windows. In
`cpuDurations_cases` the number of windows comes in, which counts only if none offends. The
main statement, `durations_iff_sound`, is about traces of finite binary64 times.
-/

namespace PaintBench.Trace

variable {α : Type}

/-! ## Windows are parts of their trace -/

theorem sublist_of_mem_closedSegments {ι : Type} {closes : ι → Bool} {l segment : List ι}
    (h : segment ∈ closedSegments closes l) : segment.Sublist l := by
  induction l generalizing segment with
  | nil => cases h
  | cons a l ih =>
    rw [closedSegments] at h
    split at h
    · rcases List.mem_cons.mp h with rfl | h
      · exact List.nil_sublist _
      · exact (ih h).cons a
    · split at h
      · cases h
      · next first segments heq =>
        rcases List.mem_cons.mp h with rfl | h
        · exact (ih (heq ▸ List.mem_cons_self)).cons_cons a
        · exact (ih (heq ▸ List.mem_cons_of_mem _ h)).cons a

/-- The events of a window are events of the trace, in their order. -/
theorem sublist_of_mem_runWindows {events window : List (Event α)}
    (h : window ∈ runWindows events) : window.Sublist events := by
  obtain ⟨segment, hsegment, rfl⟩ := List.mem_map.mp h
  have hclosed := sublist_of_mem_closedSegments (List.mem_filter.mp hsegment).1
  exact ((List.dropWhile_sublist _).trans hclosed).trans (List.dropWhile_sublist _)

theorem paintsAfterClick_sublist (window : List (Event α)) :
    (paintsAfterClick window).Sublist window :=
  List.filter_sublist.trans (List.dropWhile_sublist _)

/-! ## What a window has to be like -/

variable [Quantity α]

/-- A window has the clicks that were expected, and at least one. -/
def Clicked (clicks : Nat) (window : List (Event α)) : Prop :=
  (window.filter Event.isClick).length = clicks ∧ 1 ≤ clicks

/-- The duration and the span that are read off a window. -/
def Measures (window : List (Event α)) (duration span : α) : Prop :=
  ∃ first click lastPaint finish,
    window.head? = some first ∧ window.find? Event.isClick = some click ∧
    IsGreatest {x | x ∈ (paintsAfterClick window).map Event.finish} lastPaint ∧
    IsGreatest {x | x ∈ window.map Event.finish} finish ∧
    duration = milliseconds (lastPaint - click.ts) ∧ span = milliseconds (finish - first.ts)

/-- A window with its clicks, with paints after the first of them, and with a duration that
is not negative and fits into the window. -/
structure Sound (clicks : Nat) (window : List (Event α)) : Prop where
  clicked : Clicked clicks window
  painted : paintsAfterClick window ≠ []
  fits : ∃ duration span, Measures window duration span ∧
    ¬ duration < Quantity.ofNat 0 ∧ ¬ span < duration

/-- What is wrong with a window: the first check that it does not pass. -/
inductive Offends (clicks index : Nat) (window : List (Event α)) : Soundness α → Prop where
  | clickCount : ¬ Clicked clicks window →
      Offends clicks index window
        (.clickCount index clicks (window.filter Event.isClick).length)
  | noPaint : Clicked clicks window → paintsAfterClick window = [] →
      Offends clicks index window (.noPaint index)
  | negativeDuration {duration span : α} : Clicked clicks window →
      Measures window duration span → duration < Quantity.ofNat 0 →
      Offends clicks index window (.negativeDuration index duration)
  | exceedsWindow {duration span : α} : Clicked clicks window →
      Measures window duration span → ¬ duration < Quantity.ofNat 0 → span < duration →
      Offends clicks index window (.exceedsWindow index duration span)

/-- The warning about the paints of a window, if there are more than expected. -/
def warning? (maxPaints : Nat) (window : List (Event α) × Nat) : Option PaintWarning :=
  let paints := (paintsAfterClick window.1).length
  if maxPaints < paints then some ⟨window.2, paints, maxPaints⟩ else none

/-! ## One window -/

/-- Without its clicks a window is not measured. -/
theorem windowDuration_of_not_clicked {index : Nat} {limits : Nat × Nat}
    {window : List (Event α)} (h : ¬ Clicked limits.1 window) :
    windowDuration index window limits =
      .error (.clickCount index limits.1 (window.filter Event.isClick).length) := by
  unfold windowDuration
  dsimp only
  split
  · next click others first finish hclicks hfirst hfinish =>
    rw [if_pos fun hcount => h ⟨hcount, ?_⟩]
    rw [← hcount, hclicks]
    exact Nat.succ_pos _
  · rfl

/-- A measured window comes before the others. -/
theorem measureWindows_cons_of_ok {first : Nat} {limits : Nat × Nat} {window : List (Event α)}
    {duration : α} {paints : Nat}
    (h : windowDuration first window limits = .ok (duration, paints))
    (rest : List (List (Event α))) :
    measureWindows limits first (window :: rest) =
      (measureWindows limits (first + 1) rest).map fun samples =>
        ⟨duration :: samples.durations,
          (if limits.2 < paints then [⟨first, paints, limits.2⟩] else []) ++
            samples.warnings⟩ := by
  rw [measureWindows, h]
  rfl

/-- A window that offends is the last one that is looked at. -/
theorem measureWindows_cons_of_error {first : Nat} {limits : Nat × Nat}
    {window : List (Event α)} {error : Soundness α}
    (h : windowDuration first window limits = .error error) (rest : List (List (Event α))) :
    measureWindows limits first (window :: rest) = .error error := by
  rw [measureWindows, h]
  rfl

variable [Quantity.Ordered α] {window : List (Event α)} {duration span : α}

/-- What a window measures is alike, whichever of alike ends are the greatest. -/
theorem Measures.alike {duration' span' : α} (h : Measures window duration span)
    (h' : Measures window duration' span') :
    Quantity.Alike duration duration' ∧ Quantity.Alike span span' := by
  obtain ⟨first, click, lastPaint, finish, hfirst, hclick, hlast, hfinish, rfl, rfl⟩ := h
  obtain ⟨first', click', lastPaint', finish', hfirst', hclick', hlast', hfinish', rfl, rfl⟩ := h'
  obtain rfl : first = first' := Option.some.inj (hfirst.symm.trans hfirst')
  obtain rfl : click = click' := Option.some.inj (hclick.symm.trans hclick')
  have hpaints := Quantity.alike_of_isGreatest hlast hlast'
  have hends := Quantity.alike_of_isGreatest hfinish hfinish'
  exact ⟨Quantity.Ordered.div_alike _ (Quantity.Ordered.sub_alike _ hpaints),
    Quantity.Ordered.div_alike _ (Quantity.Ordered.sub_alike _ hends)⟩

/-- Nothing is wrong with a sound window. -/
theorem Offends.not_sound {clicks index : Nat} {error : Soundness α}
    (h : Offends clicks index window error) : ¬ Sound clicks window := by
  rintro ⟨hclicked, hpainted, duration', span', hmeasures', hpositive', hfits'⟩
  cases h with
  | clickCount hclicks => exact hclicks hclicked
  | noPaint _ hnone => exact hpainted hnone
  | negativeDuration _ hmeasures hnegative =>
    exact hpositive' ((hmeasures.alike hmeasures').1.lt_iff_left.mp hnegative)
  | exceedsWindow _ hmeasures _ hexceeds =>
    obtain ⟨hduration, hspan⟩ := hmeasures.alike hmeasures'
    exact hfits' (hspan.lt_iff_left.mp (hduration.lt_iff_right.mp hexceeds))

/-- The greatest of some numbers. -/
theorem exists_greatest {l : List α} (hl : ∀ b ∈ l, b ≤ b) (hne : l ≠ []) :
    ∃ a, greatest l = some a ∧ IsGreatest {x | x ∈ l} a := by
  cases l with
  | nil => exact absurd rfl hne
  | cons b l =>
    exact ⟨_, rfl, Quantity.isGreatest_foldl_max (hl b (by simp)) fun c hc => hl c (by simp [hc])⟩

/-- A window with its clicks has a start and an end, and its paints decide. -/
theorem windowDuration_of_clicked (index : Nat) {limits : Nat × Nat}
    (hends : ∀ x ∈ window.map Event.finish, x ≤ x) (h : Clicked limits.1 window) :
    ∃ first click finish, window.head? = some first ∧
      window.find? Event.isClick = some click ∧
      IsGreatest {x | x ∈ window.map Event.finish} finish ∧
      windowDuration index window limits =
        match greatest ((paintsAfterClick window).map Event.finish) with
        | none => .error (.noPaint index)
        | some lastPaint => (checkedDuration index first.ts finish click.ts lastPaint).map
            (·, (paintsAfterClick window).length) := by
  obtain ⟨hcount, hclicks⟩ := h
  cases hfilter : window.filter Event.isClick with
  | nil =>
    rw [hfilter] at hcount
    simp only [List.length_nil] at hcount
    omega
  | cons click others =>
    cases window with
    | nil => cases hfilter
    | cons first events =>
      obtain ⟨finish, hfinish, hgreatest⟩ := exists_greatest hends (by simp)
      refine ⟨first, click, finish, rfl, ?_, hgreatest, ?_⟩
      · rw [← List.head?_filter, hfilter, List.head?_cons]
      · have hclicks' : ¬(click :: others).length ≠ limits.1 := by
          rw [← hfilter]
          exact not_not.mpr hcount
        simp only [windowDuration, hfilter, hfinish, List.head?_cons, List.length_map]
        exact if_neg hclicks'

/-- A window is sound and yields its duration and the number of its paints, or it yields
what is wrong with it. -/
theorem windowDuration_spec (index : Nat) (limits : Nat × Nat)
    (hends : ∀ x ∈ window.map Event.finish, x ≤ x) :
    (Sound limits.1 window ∧ ∃ duration span, Measures window duration span ∧
      windowDuration index window limits =
        .ok (duration, (paintsAfterClick window).length)) ∨
    ∃ error, Offends limits.1 index window error ∧
      windowDuration index window limits = .error error := by
  by_cases hclicked : Clicked limits.1 window
  swap
  · exact Or.inr ⟨_, .clickCount hclicked, windowDuration_of_not_clicked hclicked⟩
  obtain ⟨first, click, finish, hfirst, hclick, hfinish, heq⟩ :=
    windowDuration_of_clicked index hends hclicked
  rw [heq]
  by_cases hpaints : paintsAfterClick window = []
  · rw [hpaints]
    exact Or.inr ⟨_, .noPaint hclicked hpaints, rfl⟩
  have hpaintEnds : ∀ x ∈ (paintsAfterClick window).map Event.finish, x ≤ x := fun x hx =>
    hends x (((paintsAfterClick_sublist window).map Event.finish).subset hx)
  obtain ⟨lastPaint, hlast, hgreatest⟩ := exists_greatest hpaintEnds (by simpa using hpaints)
  have hmeasures : Measures window (milliseconds (lastPaint - click.ts))
      (milliseconds (finish - first.ts)) :=
    ⟨first, click, lastPaint, finish, hfirst, hclick, hgreatest, hfinish, rfl, rfl⟩
  rw [hlast]
  simp only [checkedDuration]
  split
  · next hnegative =>
    exact Or.inr ⟨_, .negativeDuration hclicked hmeasures hnegative, rfl⟩
  · next hpositive =>
    split
    · next hexceeds =>
      exact Or.inr ⟨_, .exceedsWindow hclicked hmeasures hpositive hexceeds, rfl⟩
    · next hfits =>
      exact Or.inl ⟨⟨hclicked, hpaints, _, _, hmeasures, hpositive, hfits⟩, _, _, hmeasures, rfl⟩

/-! ## All windows of a trace -/

/-- Windows are measured up to the first one that offends. -/
theorem measureWindows_spec (limits : Nat × Nat) (windows : List (List (Event α)))
    (hends : ∀ window ∈ windows, ∀ x ∈ window.map Event.finish, x ≤ x) (first : Nat) :
    (∃ samples, measureWindows limits first windows = .ok samples ∧
      (∀ window ∈ windows, Sound limits.1 window) ∧
      List.Forall₂ (fun window duration => ∃ span, Measures window duration span)
        windows samples.durations ∧
      samples.warnings = (windows.zipIdx first).filterMap (warning? limits.2)) ∨
    ∃ error, measureWindows limits first windows = .error error ∧
      ∃ before window after, windows = before ++ window :: after ∧
        (∀ earlier ∈ before, Sound limits.1 earlier) ∧
        Offends limits.1 (first + before.length) window error := by
  induction windows generalizing first with
  | nil => exact Or.inl ⟨⟨[], []⟩, rfl, by simp, .nil, rfl⟩
  | cons window rest ih =>
    rcases windowDuration_spec first limits (hends window (by simp)) with
      ⟨hsound, duration, span, hmeasures, hduration⟩ | ⟨error, hoffends, herror⟩
    · have hstep := measureWindows_cons_of_ok hduration rest
      rcases ih (fun w hw => hends w (by simp [hw])) (first + 1) with
        ⟨samples, hsamples, hall, hmeasured, hwarnings⟩ |
        ⟨error, herror, before, offending, after, rfl, hbefore, hoffends⟩
      · rw [hsamples] at hstep
        refine Or.inl ⟨_, hstep, ?_, .cons ⟨span, hmeasures⟩ hmeasured, ?_⟩
        · intro w hw
          rcases List.mem_cons.mp hw with rfl | hw
          · exact hsound
          · exact hall w hw
        · dsimp only
          rw [List.zipIdx_cons, List.filterMap_cons, hwarnings, warning?]
          by_cases hmany : limits.2 < (paintsAfterClick window).length
          · simp only [if_pos hmany]
            rfl
          · simp only [if_neg hmany]
            rfl
      · rw [herror] at hstep
        refine Or.inr ⟨error, hstep, window :: before, offending, after, rfl, ?_, ?_⟩
        · intro w hw
          rcases List.mem_cons.mp hw with rfl | hw
          · exact hsound
          · exact hbefore w hw
        · rw [List.length_cons, Nat.add_comm before.length, ← Nat.add_assoc]
          exact hoffends
    · exact Or.inr ⟨error, measureWindows_cons_of_error herror rest, [], window, rest, rfl,
        by simp, hoffends⟩

/-- A trace has durations if all of its windows are sound and as many as expected. If not,
the first window that offends is the reason, or else their number. -/
theorem cpuDurations_cases {events : List (Event α)}
    (hends : ∀ window ∈ runWindows events, ∀ x ∈ window.map Event.finish, x ≤ x)
    (expected : Nat) (limits : Nat × Nat) :
    (∃ samples, cpuDurations events expected limits = .ok samples ∧
      (runWindows events).length = expected ∧
      (∀ window ∈ runWindows events, Sound limits.1 window) ∧
      List.Forall₂ (fun window duration => ∃ span, Measures window duration span)
        (runWindows events) samples.durations ∧
      samples.warnings = (runWindows events).zipIdx.filterMap (warning? limits.2)) ∨
    ∃ error, cpuDurations events expected limits = .error error ∧
      ((∃ before window after, runWindows events = before ++ window :: after ∧
        (∀ earlier ∈ before, Sound limits.1 earlier) ∧
        Offends limits.1 before.length window error) ∨
      ((∀ window ∈ runWindows events, Sound limits.1 window) ∧
        (runWindows events).length ≠ expected ∧
        error = .sampleCount "cpu" expected (runWindows events).length)) := by
  rcases measureWindows_spec limits (runWindows events) hends 0 with
    ⟨samples, hsamples, hsound, hmeasured, hwarnings⟩ |
    ⟨error, herror, before, window, after, hsplit, hbefore, hoffends⟩
  · have heq : cpuDurations events expected limits =
        if (runWindows events).length = expected then .ok samples
        else .error (.sampleCount "cpu" expected (runWindows events).length) := by
      rw [cpuDurations, hsamples, hmeasured.length_eq]
      rfl
    by_cases hexpected : (runWindows events).length = expected
    · rw [if_pos hexpected] at heq
      exact Or.inl ⟨samples, heq, hexpected, hsound, hmeasured, hwarnings⟩
    · rw [if_neg hexpected] at heq
      exact Or.inr ⟨_, heq, Or.inr ⟨hsound, hexpected, rfl⟩⟩
  · have heq : cpuDurations events expected limits = .error error := by
      rw [cpuDurations, herror]
      rfl
    rw [Nat.zero_add] at hoffends
    exact Or.inr ⟨error, heq, Or.inl ⟨before, window, after, hsplit, hbefore, hoffends⟩⟩

/-! ## Traces of finite times -/

/-- All times of an event are finite. -/
def TimesFinite : Event Float → Prop
  | .click ts dur | .paint ts dur => ts.isFinite = true ∧ dur.isFinite = true
  | .gc ts _ | .navigationStart ts | .marker _ ts => ts.isFinite = true

instance : DecidablePred TimesFinite
  | .click .. | .paint .. => inferInstanceAs (Decidable (_ ∧ _))
  | .gc .. | .navigationStart _ | .marker .. => inferInstanceAs (Decidable (_ = true))

/-- An event with finite times ends at a number. -/
theorem finish_le_self {e : Event Float} (h : TimesFinite e) : e.finish ≤ e.finish := by
  cases e with
  | click ts dur => exact Binary64.add_le_self h.1 h.2
  | paint ts dur => exact Binary64.add_le_self h.1 h.2
  | gc ts heap => exact Binary64.le_self_of_isFinite h
  | navigationStart ts => exact Binary64.le_self_of_isFinite h
  | marker phase ts => exact Binary64.le_self_of_isFinite h

/-- In a trace of finite times every event of a window ends at a number. -/
theorem window_ends_le_self {events : List (Event Float)} (hfinite : ∀ e ∈ events, TimesFinite e) :
    ∀ window ∈ runWindows events, ∀ x ∈ window.map Event.finish, x ≤ x := by
  intro window hwindow x hx
  obtain ⟨e, he, rfl⟩ := List.mem_map.mp hx
  exact finish_le_self (hfinite e ((sublist_of_mem_runWindows hwindow).subset he))

/-- Of the traces of finite times, exactly those have durations that consist of as many
windows as expected, all of them sound. The durations are what the windows measure, and the
warnings are about the windows with more paints than expected. Otherwise the error is what
is wrong with the first window that offends, and only if none does, it is the number of
windows. -/
theorem durations_iff_sound {events : List (Event Float)} (hfinite : ∀ e ∈ events, TimesFinite e)
    (expected : Nat) (limits : Nat × Nat) :
    ((∃ samples, cpuDurations events expected limits = .ok samples) ↔
      (runWindows events).length = expected ∧
        ∀ window ∈ runWindows events, Sound limits.1 window) ∧
    (∀ samples, cpuDurations events expected limits = .ok samples →
      List.Forall₂ (fun window duration => ∃ span, Measures window duration span)
        (runWindows events) samples.durations ∧
      samples.warnings = (runWindows events).zipIdx.filterMap (warning? limits.2)) ∧
    ∀ error, cpuDurations events expected limits = .error error →
      (∃ before window after, runWindows events = before ++ window :: after ∧
        (∀ earlier ∈ before, Sound limits.1 earlier) ∧
        Offends limits.1 before.length window error) ∨
      ((∀ window ∈ runWindows events, Sound limits.1 window) ∧
        (runWindows events).length ≠ expected ∧
        error = .sampleCount "cpu" expected (runWindows events).length) := by
  rcases cpuDurations_cases (window_ends_le_self hfinite) expected limits with
    ⟨samples, heq, hexpected, hsound, hmeasured, hwarnings⟩ | ⟨error, heq, hwhy⟩
  · rw [heq]
    refine ⟨⟨fun _ => ⟨hexpected, hsound⟩, fun _ => ⟨samples, rfl⟩⟩, ?_, ?_⟩
    · rintro _ ⟨⟩
      exact ⟨hmeasured, hwarnings⟩
    · rintro _ ⟨⟩
  · rw [heq]
    refine ⟨⟨?_, fun h => ?_⟩, ?_, ?_⟩
    · rintro ⟨_, ⟨⟩⟩
    · rcases hwhy with ⟨before, window, after, hsplit, -, hoffends⟩ | ⟨-, hexpected, -⟩
      · exact absurd (h.2 window (by simp [hsplit])) hoffends.not_sound
      · exact absurd h.1 hexpected
    · rintro _ ⟨⟩
    · rintro _ ⟨⟩
      exact hwhy

/-- The first window is sound, though one of its paints outlasts the finished marker; the
only paint of the second one comes before its click. -/
theorem durations_iff_sound_two_windows :
    (∀ e ∈ [Event.marker .init (0 : Float), .marker .run 1, .paint 2 100, .click 1000 5,
      .paint 2000 7000, .paint 3000 1000, .marker .finished 4000, .marker .init 5000,
      .marker .run 6000, .paint 6500 9, .click 7000 5, .marker .finished 8000], TimesFinite e) ∧
    ∃ before window after,
      runWindows [Event.marker .init (0 : Float), .marker .run 1, .paint 2 100, .click 1000 5,
        .paint 2000 7000, .paint 3000 1000, .marker .finished 4000, .marker .init 5000,
        .marker .run 6000, .paint 6500 9, .click 7000 5, .marker .finished 8000] =
          before ++ window :: after ∧
      (∀ earlier ∈ before, Sound 1 earlier) ∧
      Offends 1 before.length window (.noPaint 1) := by
  have hfinite : ∀ e ∈ [Event.marker .init (0 : Float), .marker .run 1, .paint 2 100,
      .click 1000 5, .paint 2000 7000, .paint 3000 1000, .marker .finished 4000,
      .marker .init 5000, .marker .run 6000, .paint 6500 9, .click 7000 5,
      .marker .finished 8000], TimesFinite e := by
    decide
  refine ⟨hfinite, ?_⟩
  rcases (durations_iff_sound hfinite 2 (1, 2)).2.2 (.noPaint 1) (by decide +kernel) with h | h
  · exact h
  · cases h.2.2

end PaintBench.Trace
