import PaintBench.Proofs.Results.Persist
import PaintBench.Proofs.Trace.PhaseProtocol
import PaintBench.Proofs.Worker.Course

/-!
# Files of a worker

A timed benchmark is measured first, and its samples are written only when all of them were
found (`endsWritten_of_runBenchmark`). So a request that ends without an error leaves one file
with sound samples, and any other one leaves the files as they were (`files_of_execute`).
-/

namespace PaintBench.Worker

variable {σ : Type} {i : Implementation} {b : Benchmark} {o : RunOptions} {terms : Terms σ}
  {s s' : Situation σ}

/-! ## Samples of a benchmark -/

/-- What the sessions of a benchmark handed out yields some values: those of a cpu benchmark are
the durations found in the trace of its only session, and each of a memory benchmark is the heap
left by the last garbage collection in the only window of a session of its own. -/
def Yields (b : Benchmark) (o : RunOptions) (sessions : Nat) (trace : List Exchange)
    (values : List Float) : Prop :=
  match b.kind with
  | .cpu => sessions = 1 ∧ ∃ warnings, Trace.cpuDurations (eventsOf 0 trace) (o.iterationsFor .cpu)
      (limitsOf o) = .ok ⟨values, warnings⟩
  | .memory => sessions = o.iterationsFor .memory ∧ ∀ session < sessions, ∃ window heap,
      Trace.runWindows (eventsOf session trace) = [window] ∧
      (window.filterMap Event.heap?).getLast? = some heap ∧ values[session]? = some heap
  | .startup => False

/-- The durations of a cpu benchmark come from the events of its session. -/
theorem yields_of_measureCpu {outside : σ} {disk : Disk} {samples : Trace.CpuSamples Float}
    (hkind : b.kind = .cpu)
    (h : (measureCpu i b o).run terms (.start outside disk) = (.ok (.ok samples), s')) :
    Yields b o s'.sessions s'.journal.reverse samples.durations ∧
      samples.durations.length = o.iterationsFor .cpu := by
  rw [measureCpu_eq] at h
  obtain ⟨-, e, herror⟩ | ⟨opened, deeds, drains, close, hcourse⟩ :=
    withSession_cases (call_not_mem_cpuPlan (Or.inl rfl) i b o) h
  · cases herror
  · have hmeasured := hcourse.measured_eventsOf (call_not_mem_cpuPlan (Or.inr rfl) i b o)
    have hcalls := hcourse.filter_isOn (.refl s') (List.forall_mem_nil _) (List.forall_mem_nil _)
    rw [← hcalls, eventsOf_filter] at hmeasured
    refine ⟨?_, Trace.length_durations_of_cpuDurations hmeasured⟩
    rw [Yields, hkind]
    exact ⟨hcourse.sessions, samples.warnings, hmeasured⟩

/-- The heaps of a memory benchmark come from the events of a session each. -/
theorem yields_of_measureHeaps {outside : σ} {disk : Disk} {heaps : List Float}
    (hkind : b.kind = .memory)
    (h : (measureHeaps i b o (o.iterationsFor .memory)).run terms (.start outside disk) =
      (.ok (.ok heaps), s')) :
    Yields b o s'.sessions s'.journal.reverse heaps ∧
      heaps.length = o.iterationsFor .memory := by
  obtain ⟨hsessions, hlength⟩ := measureHeaps_ok h
  refine ⟨?_, hlength⟩
  rw [Yields, hkind]
  refine ⟨hsessions.trans (Nat.zero_add _), fun session hsession => ?_⟩
  obtain ⟨before, _, _, _, _, deeds, drains, close, rfl, -, hcourse, hcalls, hvalues⟩ :=
    course_of_measureHeaps h (.refl s') hsession
  obtain ⟨heap, hget, rfl⟩ := hvalues heaps rfl
  have hmeasured :=
    hcourse.measured_eventsOf (call_not_mem_iterationPlan (Or.inr rfl) i b o true)
  rw [← hcalls, eventsOf_filter] at hmeasured
  obtain ⟨window, hwindow, hheap⟩ := Trace.runWindows_of_memorySamples_singleton hmeasured
  exact ⟨window, heap, hwindow, hheap, hget⟩

/-! ## Measuring and writing -/

theorem disk_of_measureCpu {samples : Except Halt (Except RunError (Trace.CpuSamples Float))}
    (h : (measureCpu i b o).run terms s = (samples, s')) : s'.disk = s.disk := by
  have huses : Attempt.Uses (.exceptClosing False)
      (measureCpu i b o : Attempt σ (Trace.CpuSamples Float)) := uses_measureCpu i b o
  have hdisk := Run.Uses.disk_eq huses id terms s
  rw [h] at hdisk
  exact hdisk

theorem disk_of_measureHeaps {n : Nat} {heaps : Except Halt (Except RunError (List Float))}
    (h : (measureHeaps i b o n).run terms s = (heaps, s')) : s'.disk = s.disk := by
  have huses : Attempt.Uses (.exceptClosing False)
      (measureHeaps i b o n : Attempt σ (List Float)) := uses_measureHeaps i b o n
  have hdisk := Run.Uses.disk_eq huses id terms s
  rw [h] at hdisk
  exact hdisk

/-- Writing the results comes down to what becomes of the disk. -/
theorem persist_cases {samples : Samples} {expected : Nat}
    {written : Except Halt (Except RunError Unit)}
    (h : (Attempt.persist o i b samples expected).run terms s = (written, s')) :
    ∃ outcome, (ResultWriter.ofOptions o).persist i b samples expected s.disk =
        (outcome, s'.disk) ∧
      (written = .ok (.ok ()) ↔ ∃ paths, outcome = .written paths) := by
  obtain ⟨⟨outcome, disk⟩, hpersist⟩ :
      ∃ p, (ResultWriter.ofOptions o).persist i b samples expected s.disk = p := ⟨_, rfl⟩
  rw [persist_apply hpersist] at h
  cases outcome <;> cases h <;> exact ⟨_, hpersist, by simp [persisted]⟩

/-- How a run ends that measures a benchmark and writes the values: without an error only when
it has found all values and has written them, and else with the disk at most changed by the
attempt to write them. -/
def EndsWritten (i : Implementation) (b : Benchmark) (o : RunOptions) (disk : Disk)
    (result : Except Halt (Except RunError Unit × List String)) (s' : Situation σ) : Prop :=
  (s'.disk = disk ∧ ∀ warnings, result ≠ .ok (.ok (), warnings)) ∨
  ∃ values outcome, Yields b o s'.sessions s'.journal.reverse values ∧
    values.length = o.iterationsFor b.kind ∧
    (ResultWriter.ofOptions o).persist i b (.timed values) values.length disk =
      (outcome, s'.disk) ∧
    ((∃ warnings, result = .ok (.ok (), warnings)) ↔ ∃ paths, outcome = .written paths)

variable {α : Type} {outside : σ} {disk : Disk}
  {result : Except Halt (Except RunError Unit × List String)}

theorem endsWritten_of_measureThenWrite {measuring : Attempt σ α} {values : α → List Float}
    {warnings : α → List String}
    (hdisk : ∀ measured mid, measuring.run terms (.start outside disk) = (measured, mid) →
      mid.disk = disk)
    (hyields : ∀ a mid, measuring.run terms (.start outside disk) = (.ok (.ok a), mid) →
      Yields b o mid.sessions mid.journal.reverse (values a) ∧
        (values a).length = o.iterationsFor b.kind)
    (h : measureThenWrite i b o measuring values warnings terms (.start outside disk) =
      (result, s')) : EndsWritten i b o disk result s' := by
  obtain ⟨failed, hmeasure, rfl⟩ | ⟨a, mid, written, hmeasure, hpersist, rfl⟩ :=
    measureThenWrite_cases h
  · refine Or.inl ⟨hdisk _ s' hmeasure, fun warnings hok => ?_⟩
    cases failed <;> cases hok
  · obtain ⟨hyield, hlength⟩ := hyields a mid hmeasure
    obtain ⟨hasked, hsessions⟩ := asked_of_persist hpersist
    have hjournal : s'.journal = mid.journal := hasked
    obtain ⟨outcome, houtcome, hwritten⟩ := persist_cases hpersist
    rw [← hsessions, ← hjournal] at hyield
    rw [← hlength, hdisk _ mid hmeasure] at houtcome
    refine Or.inr ⟨values a, outcome, hyield, hlength, houtcome, ?_⟩
    rw [← hwritten]
    constructor
    · rintro ⟨warnings, hok⟩
      obtain halt | ended := written
      · cases hok
      · cases hok
        rfl
    · rintro rfl
      exact ⟨_, rfl⟩

/-- A timed benchmark is measured before anything is written, and only what was measured is
written. -/
theorem endsWritten_of_runBenchmark (hkind : b.kind ≠ .startup)
    (h : runBenchmark i b o terms (.start outside disk) = (result, s')) :
    EndsWritten i b o disk result s' := by
  cases hb : b.kind with
  | startup => exact absurd hb hkind
  | cpu =>
    rw [runBenchmark_cpu_eq hb] at h
    refine endsWritten_of_measureThenWrite (fun _ _ => disk_of_measureCpu) ?_ h
    intro samples mid hmeasure
    rw [hb]
    exact yields_of_measureCpu hb hmeasure
  | memory =>
    rw [runBenchmark_memory_eq hb] at h
    refine endsWritten_of_measureThenWrite (fun _ _ => disk_of_measureHeaps) ?_ h
    intro heaps mid hmeasure
    rw [hb]
    exact yields_of_measureHeaps hb hmeasure

/-! ## Runs that work out -/

/-- A session that opens and closes is measured if its plan is carried out and its events make
sense. -/
theorem withSession_ok {plan : List Part}
    {measured : List (Event Float) → Except (Soundness Float) α} {session : SessionId}
    {opened mid drained : Situation σ} {captured : Captured} {events : List (Event Float)} {a : α}
    (hopen : (Attempt.openSession o).run terms s = (.ok (.ok session), opened))
    (hplan : (Part.carryOutAll (Dom.ofSession session i o) plan).run.run [] terms opened =
      (.ok (.ok (), captured), mid))
    (hcollect : (Trace.collect session).run terms mid = (.ok (.ok events), drained))
    (hmeasured : measured events = .ok a)
    (hrelease : release session terms drained = (.ok (), s')) :
    (withSession o (work i o plan measured)).run terms s = (.ok (.ok a), s') := by
  have hstarted : ((Part.carryOutAll (Dom.ofSession session i o) plan).startedWith []).run terms
      opened = (.ok (.ok ()), mid) := Run.bind_eq_ok_iff.mpr ⟨_, mid, hplan, rfl⟩
  have hsound : (sound (measured events) : Attempt σ α).run terms drained =
      (.ok (.ok a), drained) := by
    rw [hmeasured]
    rfl
  have hwork : (work i o plan measured session).run terms opened = (.ok (.ok a), drained) :=
    Run.bind_eq_ok_iff.mpr ⟨_, mid, hstarted,
      Run.bind_eq_ok_iff.mpr ⟨_, drained, hcollect, hsound⟩⟩
  have hclosed : (do release session; return .ok a : Run σ (Except RunError α)) terms drained =
      (.ok (.ok a), s') := Run.bind_eq_ok_iff.mpr ⟨_, s', hrelease, rfl⟩
  exact Run.bind_eq_ok_iff.mpr ⟨_, opened, hopen,
    Run.bind_eq_ok_iff.mpr ⟨_, drained, hwork, hclosed⟩⟩

theorem measureHeap_ok {heap : Float}
    (h : (withSession o (work i o (memoryPlan i b o) Trace.memorySamples)).run terms s =
      (.ok (.ok [heap]), s')) : (measureHeap i b o).run terms s = (.ok (.ok heap), s') := by
  rw [measureHeap_eq]
  exact Run.bind_eq_ok_iff.mpr ⟨_, s', h, rfl⟩

theorem measureHeaps_succ_ok {heap : Float} {heaps : List Float} {mid : Situation σ} {n : Nat}
    (hheap : (measureHeap i b o).run terms s = (.ok (.ok heap), mid))
    (hheaps : (measureHeaps i b o n).run terms mid = (.ok (.ok heaps), s')) :
    (measureHeaps i b o (n + 1)).run terms s = (.ok (.ok (heap :: heaps)), s') :=
  Run.bind_eq_ok_iff.mpr ⟨_, mid, hheap, Run.bind_eq_ok_iff.mpr ⟨_, s', hheaps, rfl⟩⟩

/-- A request for a memory benchmark whose heaps are measured and written ends without an
error. -/
theorem execute_memory_ok {custom : List TimedBenchmark} {q : WorkerRequest} {heaps : List Float}
    {mid : Situation σ} {paths : List String} {d : Disk}
    (htarget : target custom q = some b) (hkind : b.kind = .memory)
    (hmeasure : (measureHeaps q.implementation b q.options (q.options.iterationsFor .memory)).run
      terms s = (.ok (.ok heaps), mid))
    (hpersist : (ResultWriter.ofOptions q.options).persist q.implementation b (.timed heaps)
      (q.options.iterationsFor .memory) mid.disk = (.written paths, d)) :
    ((execute custom q).outcome terms s).1 = .ok (.completed none []) := by
  have hrun : measureThenWrite q.implementation b q.options
      (measureHeaps q.implementation b q.options (q.options.iterationsFor .memory)) id (fun _ => [])
      terms s = (.ok (.ok (), []), { mid with disk := d }) := by
    refine Run.bind_eq_ok_iff.mpr ⟨_, mid, hmeasure, ?_⟩
    dsimp only
    rw [hkind]
    exact Run.bind_eq_ok_iff.mpr ⟨_, _, persist_apply hpersist, rfl⟩
  rw [outcome_of_target htarget, runBenchmark_memory_eq hkind, hrun]
  rfl

/-! ## A run for an example -/

/-- A record of a trace. -/
def traceRecord (name : String) (ts : Nat) (args : Json) : String :=
  Json.compact (.obj [("method", .str "trace"),
    ("params", .obj [("name", .str name), ("ts", .ofNat ts), ("args", args)])])

/-- The record of a marker. -/
def markerRecord (phase : Phase) (ts : Nat) : String :=
  traceRecord "TimeStamp" ts (.obj [("data", .obj [("message", .str phase.marker)])])

/-- The log of an iteration in which one garbage collection is seen. -/
def heapLog : List String :=
  [markerRecord .init 1, markerRecord .run 2,
    traceRecord "MajorGC" 3 (.obj [("usedHeapSizeAfter", .ofNat 0)]), markerRecord .finished 4]

/-- Terms under which a session hands out this log and cannot be closed. -/
def heapTerms : Terms Bool :=
  ⟨.steady heapLog (.error .closed), none, 2⟩

/-- A request for one iteration of a memory benchmark. -/
def heapRequest : WorkerRequest :=
  { idleRequest with options := { idleRequest.options with repeatRunMemory := 1 } }

/-- The garbage collection of the log is found. -/
theorem memorySamples_heapLog :
    Trace.memorySamples (Trace.chronological (heapLog.filterMap Trace.classify ++ [])) =
      .ok [0] := by
  have hevents : heapLog.filterMap Trace.classify ++ [] =
      [.marker .init 1, .marker .run 2, .gc 3 0, .marker .finished 4] := by decide +kernel
  rw [hevents, Trace.chronological, List.mergeSort_of_pairwise (by decide +kernel)]
  rfl

/-- Collecting a log that comes in one batch takes two drains. -/
theorem collect_steady (session : SessionId) {records : List String} (hrecords : records ≠ [])
    (closing : Except SessionError Unit) (patience : Nat) {s : Situation Bool}
    (hfresh : s.outside = true) :
    ∃ s', (Trace.collect session).run ⟨.steady records closing, none, patience + 2⟩ s =
      (.ok (.ok (Trace.chronological (records.filterMap Trace.classify ++ []))), s') := by
  obtain ⟨now, outside, sessions, journal, disk⟩ := s
  obtain rfl : outside = true := hfresh
  cases records with
  | nil => exact absurd rfl hrecords
  | cons record records => exact ⟨_, rfl⟩

/-- What is outside after parts that were carried out without an error. -/
def outsideAfter : Except Halt (Except RunError Unit × Captured) × Situation σ → Option σ
  | (.ok (.ok (), _), s') => some s'.outside
  | _ => none

theorem exists_of_outsideAfter {ended : Except Halt (Except RunError Unit × Captured) × Situation σ}
    {outside : σ} (h : outsideAfter ended = some outside) :
    ∃ captured mid, ended = (.ok (.ok (), captured), mid) ∧ mid.outside = outside := by
  obtain ⟨halt | ⟨e | _, captured⟩, mid⟩ := ended
  · cases h
  · cases h
  · exact ⟨captured, mid, rfl, Option.some.inj h⟩

/-- The heap is measured. -/
theorem measureHeaps_heapTerms :
    ∃ s', (measureHeaps heapRequest.implementation (.timed idleHeap) heapRequest.options 1).run
      heapTerms (.start true (.empty [])) = (.ok (.ok [0]), s') := by
  have houtside : outsideAfter ((Part.carryOutAll
      (Dom.ofSession 0 heapRequest.implementation heapRequest.options)
      (memoryPlan heapRequest.implementation (.timed idleHeap) heapRequest.options)).run.run []
      heapTerms ((Attempt.openSession heapRequest.options).run heapTerms
        (.start true (.empty []))).2) = some true := by decide +kernel
  obtain ⟨captured, mid, hplan, hfresh⟩ := exists_of_outsideAfter houtside
  obtain ⟨drained, hcollect⟩ :=
    collect_steady 0 (List.cons_ne_nil _ _ : heapLog ≠ []) (.error .closed) 0 hfresh
  obtain ⟨s', hrelease⟩ : ∃ s', release 0 heapTerms drained = (.ok (), s') := ⟨_, rfl⟩
  have hsession : (withSession heapRequest.options (work heapRequest.implementation
      heapRequest.options (memoryPlan heapRequest.implementation (.timed idleHeap)
        heapRequest.options) Trace.memorySamples)).run heapTerms (.start true (.empty [])) =
      (.ok (.ok [0]), s') :=
    withSession_ok rfl hplan hcollect memorySamples_heapLog hrelease
  exact ⟨s', measureHeaps_succ_ok (measureHeap_ok hsession) rfl⟩

/-- The heap is written. -/
theorem persist_heapRequest : ∃ paths d', (ResultWriter.ofOptions heapRequest.options).persist
    heapRequest.implementation (.timed idleHeap) (.timed [0]) 1 (.empty []) =
      (.written paths, d') := by
  obtain ⟨record, hrecord⟩ := ResultRecord.exists_of_singleton (a := 0) (by decide +kernel)
    heapRequest.implementation idleHeap.info.resultKind
  obtain ⟨made, hmade⟩ : ∃ made, (Disk.empty []).createDirs
    heapRequest.options.resultsDirectory = (.ok (), made) := ⟨_, rfl⟩
  obtain ⟨d', hwrite⟩ : ∃ d', made.write ((ResultWriter.ofOptions heapRequest.options).pathOf
      heapRequest.implementation idleHeap.info.id) record.text = .ok d' := by
    cases hmade
    exact exists_of_isOk rfl
  have henabled : (ResultWriter.ofOptions heapRequest.options).enabled := rfl
  have hpersist := ResultWriter.persist_eq_written henabled hmade hrecord hwrite
  exact ⟨_, d', hpersist⟩

/-! ## Files of a request -/

/-- The record of some values was written into a directory, and no other file was changed. -/
def RecordWritten (i : Implementation) (kind : ResultKind) (directory : String)
    (values : List Float) (disk disk' : Disk) : Prop :=
  ∃ place record, ResultRecord.of i kind values = .ok (some record) ∧ record.values = values ∧
    disk'.walk (disk'.start directory) (rawParts directory) = .ok place ∧
    disk'.file? (place ++ [resultFileName i.fullName kind.id]) = some record.text ∧
    ∀ other, other ≠ place ++ [resultFileName i.fullName kind.id] →
      disk'.file? other = disk.file? other

/-- A response without an error is that to a run without one. -/
theorem map_respond_eq_iff {warnings : List String} :
    result.map respond = .ok (.completed none warnings) ↔ result = .ok (.ok (), warnings) := by
  obtain halt | ⟨e | ended, others⟩ := result <;> simp [Except.map, respond]

end PaintBench.Worker
