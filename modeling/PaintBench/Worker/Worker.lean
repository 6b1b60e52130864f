import PaintBench.Catalog.Catalog
import PaintBench.Trace.Record
import PaintBench.Trace.Window
import PaintBench.Worker.Iteration
import PaintBench.Worker.Message

/-!
# Workers

A worker runs one benchmark for one implementation and writes the results. Benchmarks of
the kind cpu use one session for all iterations and measure all of them from one trace.
Benchmarks of the kind memory open a session for each iteration, so that no heap is
carried over. Startup hands the page to the audit tool. Whatever happens, a session is
closed before the run goes on, and a failing close changes nothing.
-/

namespace PaintBench.Worker

variable {σ α : Type}

/-- Close a session, whether or not that works. -/
def release (session : SessionId) : Run σ Unit :=
  discard (Run.ask (.call session .close))

/-- Work on a session of its own, which is closed at the end. -/
def withSession (o : RunOptions) (work : SessionId → Attempt σ α) : Attempt σ α := do
  let session ← Attempt.openSession o
  ExceptT.mk do
    let result ← (work session).run
    release session
    return result

/-- Take a benchmark through a number of iterations. -/
def iterateTimes (session : SessionId) (i : Implementation) (b : Benchmark)
    (o : RunOptions) : Nat → Attempt σ Unit
  | 0 => return ()
  | n + 1 => do
    iterate session i b o false
    iterateTimes session i b o n

/-- Extraction failures are failures of the run. -/
def sound (result : Except (Soundness Float) α) : Attempt σ α :=
  Attempt.ofExcept (result.mapError .soundness)

/-- The warning about the paints of a window. -/
def paintWarning (i : Implementation) (benchmarkId : String) (w : Trace.PaintWarning) :
    String :=
  s!"For framework {i.name} and benchmark {benchmarkId} the number of paint calls is higher " ++
    s!"than expected. There were {w.paints} paints though at most {w.maxExpected} are expected. " ++
    "Please consider re-running and check the results"

/-- The limits of a run for the extraction. -/
def limitsOf (o : RunOptions) : Nat × Nat :=
  (o.extraction.expectedClicks.toNat, o.extraction.maxExpectedPaints.toNat)

/-- Measure all iterations of a cpu benchmark in one session. -/
def measureCpu (i : Implementation) (b : Benchmark) (o : RunOptions) :
    Attempt σ (Trace.CpuSamples Float) :=
  withSession o fun session => do
    iterateTimes session i b o (o.iterationsFor .cpu)
    let events ← Trace.collect session
    sound (Trace.cpuDurations events (o.iterationsFor .cpu) (limitsOf o))

/-- Run a cpu benchmark. Its warnings stand even when the results cannot be written. -/
def runCpu (i : Implementation) (b : Benchmark) (o : RunOptions) :
    Run σ (Except RunError Unit × List String) := do
  match ← (measureCpu i b o).run with
  | .error e => return (.error e, [])
  | .ok samples =>
    let warnings := samples.warnings.map (paintWarning i b.id)
    let result ←
      (Attempt.persist o i b (.timed samples.durations) (o.iterationsFor .cpu)).run
    return (result, warnings)

/-- The heap after one iteration of a memory benchmark, in a session of its own. -/
def measureHeap (i : Implementation) (b : Benchmark) (o : RunOptions) :
    Attempt σ Float := do
  let heaps : List Float ← withSession o fun session => do
    iterate session i b o true
    let events ← Trace.collect session
    sound (Trace.memorySamples events)
  match heaps with
  | [heap] => return heap
  | _ => .fail (.soundness (.sampleCount b.id 1 heaps.length))

/-- The heaps after a number of iterations. -/
def measureHeaps (i : Implementation) (b : Benchmark) (o : RunOptions) :
    Nat → Attempt σ (List Float)
  | 0 => return []
  | n + 1 => do
    let heap ← measureHeap i b o
    return heap :: (← measureHeaps i b o n)

/-- Run a memory benchmark. -/
def runMemory (i : Implementation) (b : Benchmark) (o : RunOptions) : Attempt σ Unit := do
  let heaps ← measureHeaps i b o (o.iterationsFor .memory)
  Attempt.persist o i b (.timed heaps) (o.iterationsFor .memory)

/-- The metrics of a number of audits. -/
def auditTimes (url : String) (o : RunOptions) : Nat → Attempt σ (List StartupMetrics)
  | 0 => return []
  | n + 1 => do
    let report ← Attempt.audit url o
    return StartupMetrics.ofReport report :: (← auditTimes url o n)

/-- Run the startup audit. -/
def runStartup (i : Implementation) (b : Benchmark) (o : RunOptions) : Attempt σ Unit := do
  let reports ← auditTimes (o.urlFor i) o (o.iterationsFor .startup)
  Attempt.persist o i b (.startup reports) (o.iterationsFor .startup)

/-- Run a benchmark. -/
def runBenchmark (i : Implementation) (b : Benchmark) (o : RunOptions) :
    Run σ (Except RunError Unit × List String) := do
  match b.kind with
  | .cpu => runCpu i b o
  | .memory => return (← (runMemory i b o).run, [])
  | .startup => return (← (runStartup i b o).run, [])

/-- The response to how a run ended. -/
def respond : Except RunError Unit × List String → WorkerResponse
  | (.ok (), warnings) => .completed none warnings
  | (.error e, warnings) => .completed (some e.message) warnings

/-- Act on a request, given the benchmarks beside the standard suite. A request for a
benchmark that is not known fails. -/
def execute (custom : List TimedBenchmark) (q : WorkerRequest) : Run σ WorkerResponse := do
  match Catalog.withCustom q.options custom with
  | .error e => return .failure e.message
  | .ok catalog =>
    match catalog.get q.benchmarkId with
    | none => return .failure (RunError.unknownBenchmark q.benchmarkId).message
    | some b => return respond (← runBenchmark q.implementation b q.options)

end PaintBench.Worker
