import PaintBench.Proofs.Result
import PaintBench.Trace.Window

/-!
# The phase protocol in a trace

A worker announces the four phases of every iteration in the trace. Between two markers
there may be any other events: clicks, paints, collections, navigations. `Passage` is one
phase of a trace and `IterationTrace` all four of them.

`runWindows` undoes the protocol: of what iterations leave after a page load, it returns
the passages of the run phases. `extraction_of_iterations` adds what follows for the
samples, which depend on these passages alone.
-/

namespace PaintBench.Trace

variable {α : Type}

/-! ## Segments -/

/-- A list without a closing element has no closed segment. -/
theorem closedSegments_of_open {ι : Type} {closes : ι → Bool} {l : List ι}
    (h : ∀ a ∈ l, closes a = false) : closedSegments closes l = [] := by
  induction l with
  | nil => rfl
  | cons a l ih =>
    have ha : closes a = false := h a (by simp)
    rw [closedSegments, ih fun b hb => h b (by simp [hb]), ha]
    rfl

/-- The first closing element ends the first segment. -/
theorem closedSegments_append {ι : Type} {closes : ι → Bool} {l : List ι} {a : ι}
    (h : ∀ b ∈ l, closes b = false) (ha : closes a = true) (rest : List ι) :
    closedSegments closes (l ++ a :: rest) = l :: closedSegments closes rest := by
  induction l with
  | nil => simp [closedSegments, ha]
  | cons b l ih =>
    have hb : closes b = false := h b (by simp)
    rw [List.cons_append, closedSegments, ih fun c hc => h c (by simp [hc]), hb]
    rfl

/-! ## Iterations in a trace -/

/-- A phase in a trace: when it was announced, and the events up to the next marker. -/
structure Passage (α : Type) where
  announced : α
  events : List (Event α)
  unmarked : ∀ e ∈ events, e.phase? = none

/-- The trace of a phase. -/
def Passage.trace (p : Passage α) (phase : Phase) : List (Event α) :=
  .marker phase p.announced :: p.events

/-- The phases of an iteration in a trace. -/
structure IterationTrace (α : Type) where
  init : Passage α
  run : Passage α
  finished : Passage α
  after : Passage α

namespace IterationTrace

/-- The trace of an iteration. -/
def events (i : IterationTrace α) : List (Event α) :=
  i.init.trace .init ++ i.run.trace .run ++ i.finished.trace .finished ++ i.after.trace .after

/-- The measured part of an iteration. -/
def window (i : IterationTrace α) : List (Event α) :=
  i.run.trace .run

end IterationTrace

/-- The trace of a page load and the iterations after it. -/
def protocolTrace (load : List (Event α)) (iterations : List (IterationTrace α)) :
    List (Event α) :=
  load ++ iterations.flatMap IterationTrace.events

/-- An event of a phase announces that phase or nothing. -/
theorem phase?_of_mem_trace {p : Passage α} {phase : Phase} {e : Event α}
    (h : e ∈ p.trace phase) : e.phase? = some phase ∨ e.phase? = none := by
  rcases List.mem_cons.mp h with rfl | h
  · exact Or.inl rfl
  · exact Or.inr (p.unmarked e h)

namespace IterationTrace

/-- What ends with the finished marker of an iteration. -/
def opening (i : IterationTrace α) : List (Event α) :=
  i.init.trace .init ++ i.run.trace .run

/-- What an iteration leaves behind its finished marker. -/
def closing (i : IterationTrace α) : List (Event α) :=
  i.finished.events ++ i.after.trace .after

theorem events_eq (i : IterationTrace α) :
    i.events = i.opening ++ .marker .finished i.finished.announced :: i.closing := by
  simp [events, opening, closing, Passage.trace]

theorem phase?_of_mem_opening {i : IterationTrace α} {e : Event α} (h : e ∈ i.opening) :
    e.phase? ≠ some .finished := by
  rcases List.mem_append.mp h with h | h
  · rcases phase?_of_mem_trace h with h | h <;> simp [h]
  · rcases phase?_of_mem_trace h with h | h <;> simp [h]

theorem phase?_of_mem_closing {i : IterationTrace α} {e : Event α} (h : e ∈ i.closing) :
    e.phase? ≠ some .finished ∧ e.phase? ≠ some .run := by
  rcases List.mem_append.mp h with h | h
  · simp [i.finished.unmarked e h]
  · rcases phase?_of_mem_trace h with h | h <;> simp [h]

/-- The run marker of an iteration is the first one in its segment. -/
theorem dropWhile_opening (i : IterationTrace α) {before : List (Event α)}
    (hbefore : ∀ e ∈ before, e.phase? ≠ some .run) :
    (before ++ i.opening).dropWhile (·.phase? != some .run) = i.window := by
  have hskip : ∀ e ∈ before ++ i.init.trace .init, (e.phase? != some .run) = true := by
    intro e he
    rcases List.mem_append.mp he with he | he
    · simpa using hbefore e he
    · rcases phase?_of_mem_trace he with h | h <;> simp [h]
  rw [opening, ← List.append_assoc, List.dropWhile_append_of_pos hskip]
  rfl

end IterationTrace

/-- The windows of iterations after events that neither start nor end one. Every segment
but the first begins with what the iteration before it left after its finished marker,
which is why the induction is over any such events `before`. -/
theorem windows_of_segments (iterations : List (IterationTrace α)) :
    ∀ before : List (Event α),
      (∀ e ∈ before, e.phase? ≠ some .finished ∧ e.phase? ≠ some .run) →
      ((closedSegments (·.phase? == some .finished)
          (before ++ iterations.flatMap IterationTrace.events)).filter
        (·.any (·.phase? != some .run))).map (·.dropWhile (·.phase? != some .run)) =
      iterations.map IterationTrace.window := by
  induction iterations with
  | nil =>
    intro before hb
    rw [List.flatMap_nil, List.append_nil, closedSegments_of_open fun e he => by
      simpa using (hb e he).1]
    rfl
  | cons i rest ih =>
    intro before hb
    have hsplit : before ++ (i :: rest).flatMap IterationTrace.events =
        (before ++ i.opening) ++ .marker .finished i.finished.announced ::
          (i.closing ++ rest.flatMap IterationTrace.events) := by
      rw [List.flatMap_cons, i.events_eq]
      simp
    have hopen : ∀ e ∈ before ++ i.opening, (e.phase? == some .finished) = false := by
      intro e he
      rcases List.mem_append.mp he with he | he
      · simpa using (hb e he).1
      · simpa using IterationTrace.phase?_of_mem_opening he
    have hany : (before ++ i.opening).any (·.phase? != some .run) = true :=
      List.any_eq_true.mpr ⟨.marker .init i.init.announced,
        by simp [IterationTrace.opening, Passage.trace], rfl⟩
    rw [hsplit, closedSegments_append hopen rfl, List.filter_cons, if_pos hany, List.map_cons,
      i.dropWhile_opening fun e he => (hb e he).2,
      ih i.closing fun e he => IterationTrace.phase?_of_mem_closing he, List.map_cons]

/-- The windows of a trace that follows the protocol are its run phases. -/
theorem runWindows_protocolTrace {load : List (Event α)}
    (hload : ∀ e ∈ load, e.phase? ≠ some .init) (iterations : List (IterationTrace α)) :
    runWindows (protocolTrace load iterations) = iterations.map IterationTrace.window := by
  have hstart : (protocolTrace load iterations).dropWhile (·.phase? != some .init) =
      iterations.flatMap IterationTrace.events := by
    rw [protocolTrace, List.dropWhile_append_of_pos fun e he => by simpa using hload e he]
    cases iterations <;> rfl
  have hsegments := windows_of_segments iterations [] (by simp)
  rw [List.nil_append] at hsegments
  rw [runWindows, windowsBy, hstart, hsegments]

/-! ## Samples -/

/-- Each window yields the heap that its last garbage collection left. -/
theorem map_window_of_lastHeaps {windows : List (List (Event α))} :
    ∀ {first : Nat} {heaps : List α}, lastHeaps first windows = .ok heaps →
      windows.map (fun window => (window.filterMap Event.heap?).getLast?) = heaps.map some := by
  induction windows with
  | nil =>
    intro first heaps h
    cases h
    rfl
  | cons events rest ih =>
    intro first heaps h
    rw [lastHeaps] at h
    split at h
    · cases h
    · next heap hheap =>
      cases hlater : lastHeaps (first + 1) rest with
      | error e => rw [hlater] at h; cases h
      | ok later =>
        rw [hlater] at h
        cases h
        rw [List.map_cons, List.map_cons, List.getLast?_filterMap, hheap, ih hlater]

/-- A single heap is that of the only window. -/
theorem runWindows_of_memorySamples_singleton {events : List (Event α)} {heap : α}
    (h : memorySamples events = .ok [heap]) :
    ∃ window, runWindows events = [window] ∧
      (window.filterMap Event.heap?).getLast? = some heap :=
  List.map_eq_singleton_iff.mp (map_window_of_lastHeaps h)

variable [Quantity α]

/-- Every measured window has a duration. -/
theorem length_durations_of_measureWindows {limits : Nat × Nat}
    {windows : List (List (Event α))} :
    ∀ {first : Nat} {samples : CpuSamples α},
      measureWindows limits first windows = .ok samples →
        samples.durations.length = windows.length := by
  induction windows with
  | nil =>
    intro first samples h
    cases h
    rfl
  | cons events rest ih =>
    intro first samples h
    rw [measureWindows] at h
    obtain ⟨measured, -, h⟩ := bind_eq_ok_iff.mp h
    obtain ⟨later, hlater, h⟩ := bind_eq_ok_iff.mp h
    cases h
    simp [ih hlater]

/-- As many durations come out as were expected, which are as many as there are
windows. -/
theorem length_runWindows_of_cpuDurations {events : List (Event α)} {expected : Nat}
    {limits : Nat × Nat} {samples : CpuSamples α}
    (h : cpuDurations events expected limits = .ok samples) :
    (runWindows events).length = expected := by
  obtain ⟨measured, hmeasured, h⟩ := bind_eq_ok_iff.mp h
  rw [← length_durations_of_measureWindows hmeasured]
  split at h
  · assumption
  · cases h

/-- As many durations come out as were expected. -/
theorem length_durations_of_cpuDurations {events : List (Event α)} {expected : Nat}
    {limits : Nat × Nat} {samples : CpuSamples α}
    (h : cpuDurations events expected limits = .ok samples) :
    samples.durations.length = expected := by
  obtain ⟨measured, -, h⟩ := bind_eq_ok_iff.mp h
  split at h
  · cases h
    assumption
  · cases h

/-- The extraction undoes the phase protocol. The windows of a trace are its run phases in
their order. Samples, warnings and errors depend on these alone, whatever surrounds them,
and no number of samples is accepted but the number of iterations. -/
theorem extraction_of_iterations {load : List (Event α)}
    (hload : ∀ e ∈ load, e.phase? ≠ some .init) (iterations : List (IterationTrace α)) :
    runWindows (protocolTrace load iterations) = iterations.map IterationTrace.window ∧
    (∀ (load' : List (Event α)) (iterations' : List (IterationTrace α)),
      (∀ e ∈ load', e.phase? ≠ some .init) →
      iterations'.map IterationTrace.window = iterations.map IterationTrace.window →
      (∀ expected limits, cpuDurations (protocolTrace load' iterations') expected limits =
        cpuDurations (protocolTrace load iterations) expected limits) ∧
      memorySamples (protocolTrace load' iterations') =
        memorySamples (protocolTrace load iterations)) ∧
    ∀ expected limits, expected ≠ iterations.length →
      ∀ samples, cpuDurations (protocolTrace load iterations) expected limits ≠ .ok samples := by
  have hwindows := runWindows_protocolTrace hload iterations
  refine ⟨hwindows, ?_, ?_⟩
  · intro load' iterations' hload' hsame
    have hwindows' : runWindows (protocolTrace load' iterations') =
        runWindows (protocolTrace load iterations) := by
      rw [runWindows_protocolTrace hload', hsame, hwindows]
    refine ⟨fun expected limits => ?_, ?_⟩
    · rw [cpuDurations, cpuDurations, hwindows']
    · rw [memorySamples, memorySamples, hwindows']
  · intro expected limits hne samples h
    have hlength := length_runWindows_of_cpuDurations h
    rw [hwindows, List.length_map] at hlength
    exact hne hlength.symm

/-- A click of the init hook, and what comes after the finished marker, are in no window. -/
theorem extraction_of_one_iteration :
    (∀ e ∈ [Event.paint (10 : Float) 5, .marker .finished 20], e.phase? ≠ some .init) ∧
    runWindows [Event.paint (10 : Float) 5, .marker .finished 20,
        .marker .init 30, .click 31 1, .marker .run 40, .click 41 1, .paint 45 5,
        .marker .finished 60, .gc 61 2, .marker .after 70, .paint 75 1] =
      [[.marker .run 40, .click 41 1, .paint 45 5]] ∧
    ∀ samples, cpuDurations [Event.paint (10 : Float) 5, .marker .finished 20,
        .marker .init 30, .click 31 1, .marker .run 40, .click 41 1, .paint 45 5,
        .marker .finished 60, .gc 61 2, .marker .after 70, .paint 75 1] 2 (1, 2) ≠
      .ok samples := by
  have hload : ∀ e ∈ [Event.paint (10 : Float) 5, .marker .finished 20],
      e.phase? ≠ some .init := by
    decide
  have h := extraction_of_iterations hload [{
    init := ⟨30, [.click 31 1], by decide⟩
    run := ⟨40, [.click 41 1, .paint 45 5], by decide⟩
    finished := ⟨60, [.gc 61 2], by decide⟩
    after := ⟨70, [.paint 75 1], by decide⟩ }]
  exact ⟨hload, h.1, h.2.2 2 (1, 2) (by decide)⟩

end PaintBench.Trace
