import Mathlib
import PaintBench.Proofs.Catalog.Shapes
import PaintBench.Proofs.Results.Kinds
import PaintBench.Proofs.Worker.Files

/-!
# Timed results are complete

A timed benchmark is measured before its results are persisted (`execute_eq_measured`), and what is
measured has as many values as there were iterations (`length_of_measured`). So when a
configuration was accepted, and the kinds of its benchmarks fit their shapes, the result kind of a
timed benchmark is complete whenever it is persisted (`timed_results_are_complete`).
-/

namespace PaintBench

namespace ResultWriter

variable {w : ResultWriter} {i : Implementation} {b : Benchmark} {samples : Samples}
  {expected : Nat}

/-- Persisting complete kinds does not fail for the sake of the samples. -/
theorem persistKinds_ne_soundness {kinds : List ResultKind}
    (h : ∀ kind ∈ kinds, b.IsComplete samples expected kind) (written : List String) (d : Disk)
    (e : Soundness Float) :
    (w.persistKinds i b samples expected kinds written none d).1 ≠ .failed (.soundness e) := by
  induction kinds generalizing written d with
  | nil => simp [persistKinds_nil, concluded]
  | cons kind rest ih =>
    obtain ⟨hkind, hrest⟩ := List.forall_mem_cons.mp h
    obtain ⟨values, hvalues, rfl⟩ := hkind.exists_values
    rw [persistKinds_cons, hvalues, completeValues_map_some]
    dsimp only
    split
    · simp
    · exact ih hrest _ _
    · split
      · split
        · simp
        · exact ih hrest _ _
      · exact ih hrest _ _

theorem persist_ne_soundness (h : ∀ kind ∈ b.resultKinds, b.IsComplete samples expected kind)
    (d : Disk) (e : Soundness Float) :
    (w.persist i b samples expected d).1 ≠ .failed (.soundness e) := by
  rw [persist]
  split
  · split
    · simp
    · exact persistKinds_ne_soundness h _ _ e
  · exact persistKinds_ne_soundness h _ _ e

end ResultWriter

namespace Worker

variable {σ : Type} {i : Implementation} {b : Benchmark} {o : RunOptions} {terms : Terms σ}
  {s s' : Situation σ}

/-- A duration is measured for each iteration. -/
theorem length_of_measureCpu {samples : Trace.CpuSamples Float}
    (h : (measureCpu i b o).run terms s = (.ok (.ok samples), s')) :
    samples.durations.length = o.iterationsFor .cpu := by
  rw [measureCpu_eq] at h
  obtain ⟨-, e, herror⟩ | ⟨opened, deeds, drains, close, hcourse⟩ :=
    withSession_cases (call_not_mem_cpuPlan (Or.inl rfl) i b o) h
  · cases herror
  · exact Trace.length_durations_of_cpuDurations
      (hcourse.measured_eventsOf (call_not_mem_cpuPlan (Or.inr rfl) i b o))

/-- What is measured of a benchmark before anything is persisted: its values, and warnings about
them. -/
def measured (i : Implementation) (b : Benchmark) (o : RunOptions) :
    Attempt σ (List Float × List String) :=
  match b.kind with
  | .cpu => do
    let samples ← measureCpu i b o
    return (samples.durations, samples.warnings.map (paintWarning i b.id))
  | _ => do
    let heaps ← measureHeaps i b o (o.iterationsFor b.kind)
    return (heaps, [])

/-- Persist what was measured. -/
def persistMeasured (i : Implementation) (b : Benchmark) (o : RunOptions) :
    Except RunError (List Float × List String) → Run σ (Except RunError Unit × List String)
  | .error e => return (.error e, [])
  | .ok (values, warnings) => do
    let written ← (Attempt.persist o i b (.timed values) (o.iterationsFor b.kind)).run
    return (written, warnings)

theorem runBenchmark_eq_measured (hkind : b.kind ≠ .startup) :
    (runBenchmark i b o : Run σ (Except RunError Unit × List String)) =
      (measured i b o).run >>= persistMeasured i b o := by
  cases hb : b.kind with
  | startup => exact absurd hb hkind
  | cpu =>
    rw [runBenchmark_cpu_eq hb, measureThenWrite, measured, hb]
    change _ = ((measureCpu i b o).run >>= ExceptT.bindCont _) >>= _
    rw [bind_assoc]
    refine bind_congr fun samples => ?_
    cases samples with
    | error e => rfl
    | ok samples => rw [← hb]; rfl
  | memory =>
    rw [runBenchmark_memory_eq hb, measureThenWrite, measured, hb]
    change _ = ((measureHeaps i b o (o.iterationsFor .memory)).run >>= ExceptT.bindCont _) >>= _
    rw [bind_assoc]
    refine bind_congr fun heaps => ?_
    cases heaps with
    | error e => rfl
    | ok heaps => rw [← hb]; rfl

/-- As many values are measured as there are iterations. -/
theorem length_of_measured {values : List Float} {warnings : List String}
    (h : (measured i b o).run terms s = (.ok (.ok (values, warnings)), s')) :
    values.length = o.iterationsFor b.kind := by
  rw [measured] at h
  split at h
  · next hb =>
    obtain ⟨e, -, herror⟩ | ⟨samples, mid, hmeasure, hreturn⟩ := Attempt.bind_cases h
    · cases herror
    · cases hreturn
      rw [hb]
      exact length_of_measureCpu hmeasure
  · obtain ⟨e, -, herror⟩ | ⟨heaps, mid, hmeasure, hreturn⟩ := Attempt.bind_cases h
    · cases herror
    · cases hreturn
      exact (measureHeaps_ok hmeasure).2

/-! ## Requests -/

/-- The benchmark a request is for stands in the catalog. -/
theorem exists_catalog_of_target {custom : List TimedBenchmark} {q : WorkerRequest}
    (h : target custom q = some b) :
    ∃ catalog, Catalog.withCustom q.options custom = .ok catalog ∧ b ∈ catalog.benchmarks := by
  rw [target] at h
  cases hcatalog : Catalog.withCustom q.options custom with
  | error e =>
    rw [hcatalog] at h
    cases h
  | ok catalog =>
    rw [hcatalog] at h
    exact ⟨catalog, rfl, (Catalog.mem_of_get h).1⟩

/-- A request for a timed benchmark measures it, and persists what was measured if that worked
out. -/
theorem execute_eq_measured {custom : List TimedBenchmark} {q : WorkerRequest}
    (htarget : target custom q = some b) (hkind : b.kind ≠ .startup) :
    (execute custom q : Run σ WorkerResponse) = do
      let samples ← (measured q.implementation b q.options).run
      let ended ← persistMeasured q.implementation b q.options samples
      return respond ended := by
  rw [execute_of_target htarget, runBenchmark_eq_measured hkind, bind_assoc]

/-- In the catalog of a configuration that was accepted the startup audit is the only benchmark of
the kind startup. A request for any other one persists nothing or what was measured, and that makes
its only result kind complete: it has one value for each iteration, so that persisting cannot fail
for a missing one, whatever is on the disk. -/
theorem timed_results_are_complete {text : String} {c : Config} (h : Config.ofText text = .ok c) :
    (∀ options catalog, Catalog.withCustom options c.benchmarks = .ok catalog →
      ∀ b ∈ catalog.benchmarks, b.kind = .startup ↔ b.IsAudit) ∧
    ∀ (q : WorkerRequest) (b : Benchmark), target c.benchmarks q = some b →
      b.kind = .cpu ∨ b.kind = .memory →
      ∃ kind, b.resultKinds = [kind] ∧ ∀ σ : Type,
        (execute c.benchmarks q : Run σ WorkerResponse) = (do
          let samples ← (measured q.implementation b q.options).run
          let ended ← persistMeasured q.implementation b q.options samples
          return respond ended) ∧
        ∀ (terms : Terms σ) (s s' : Situation σ) values warnings,
          (measured q.implementation b q.options).run terms s =
            (.ok (.ok (values, warnings)), s') →
          b.extract (.timed values) kind.id = values.map some ∧
          values.length = q.options.iterationsFor b.kind ∧
          ∀ (w : ResultWriter) (d : Disk) kindId expected actual,
            (w.persist q.implementation b (.timed values) (q.options.iterationsFor b.kind) d).1 ≠
              .failed (.soundness (.sampleCount kindId expected actual)) := by
  have hcustom := Config.kind_ne_startup_of_ofText h
  refine ⟨fun options catalog hcatalog => Catalog.kindFits_of_withCustom hcatalog hcustom,
    fun q b htarget hkind => ?_⟩
  have hne : b.kind ≠ .startup := by
    rcases hkind with hkind | hkind <;> rw [hkind] <;> nofun
  obtain ⟨catalog, hcatalog, hmem⟩ := exists_catalog_of_target htarget
  have hfits : b.KindFits := Catalog.kindFits_of_withCustom hcatalog hcustom b hmem
  cases b with
  | startup info => exact absurd (hfits.mpr ⟨info, rfl⟩) hne
  | timed b =>
    refine ⟨b.info.resultKind, rfl, fun σ => ⟨execute_eq_measured htarget hne, ?_⟩⟩
    intro terms s s' values warnings hmeasured
    have hlength := length_of_measured hmeasured
    refine ⟨rfl, hlength, fun w d kindId expected actual => ?_⟩
    have hcomplete : (Benchmark.timed b).IsComplete (.timed values)
        (q.options.iterationsFor (Benchmark.timed b).kind) b.info.resultKind := by
      refine ⟨(List.length_map _).trans hlength, fun entry hentry => ?_⟩
      obtain ⟨x, -, rfl⟩ := List.mem_map.mp hentry
      rfl
    have hkinds : ∀ kind ∈ (Benchmark.timed b).resultKinds,
        (Benchmark.timed b).IsComplete (.timed values)
          (q.options.iterationsFor (Benchmark.timed b).kind) kind :=
      List.forall_mem_singleton.mpr hcomplete
    exact ResultWriter.persist_ne_soundness hkinds d _

/-- The heap of a benchmark without steps is measured. -/
theorem measured_heapTerms :
    ∃ s', (measured heapRequest.implementation (.timed idleHeap) heapRequest.options).run
      heapTerms (.start true (.empty [])) = (.ok (.ok ([0], [])), s') := by
  obtain ⟨s', hheaps⟩ := measureHeaps_heapTerms
  have hiterations : heapRequest.options.iterationsFor .memory = 1 := rfl
  refine ⟨s', ?_⟩
  change (measureHeaps heapRequest.implementation (.timed idleHeap) heapRequest.options
    (heapRequest.options.iterationsFor .memory) >>= fun heaps => pure (heaps, [])).run
    heapTerms _ = _
  rw [hiterations]
  exact Attempt.bind_of_ok hheaps rfl

/-- A configuration with this benchmark. -/
def idleConfig : String :=
  "[[benchmarks]]\nid = \"idle-heap\"\nlabel = \"idle\"\nkind = \"memory\"\n"

/-- The heap of its only iteration is measured, and persisting it does not miss a value. -/
theorem timed_results_are_complete_idle :
    Config.ofText idleConfig = .ok ⟨.standard, .standard, [], [idleHeap]⟩ ∧
      (∃ s', (measured heapRequest.implementation (.timed idleHeap) heapRequest.options).run
        heapTerms (.start true (.empty [])) = (.ok (.ok ([0], [])), s')) ∧
      ∀ kindId expected actual,
        (ResultWriter.persist ⟨"results", true⟩ heapRequest.implementation (.timed idleHeap)
          (.timed [0]) 1 (.empty [])).1 ≠
            .failed (.soundness (.sampleCount kindId expected actual)) := by
  have hconfig : Config.ofText idleConfig = .ok ⟨.standard, .standard, [], [idleHeap]⟩ := by cbv
  obtain ⟨s', hmeasured⟩ := measured_heapTerms
  have htarget : target [idleHeap] heapRequest = some (.timed idleHeap) := rfl
  obtain ⟨-, hcomplete⟩ := timed_results_are_complete hconfig
  obtain ⟨kind, -, hruns⟩ := hcomplete heapRequest (.timed idleHeap) htarget (.inr rfl)
  obtain ⟨-, hpersists⟩ := hruns Bool
  obtain ⟨-, -, hpersist⟩ := hpersists heapTerms _ s' [0] [] hmeasured
  exact ⟨hconfig, ⟨s', hmeasured⟩, hpersist ⟨"results", true⟩ (.empty [])⟩

end Worker

end PaintBench
