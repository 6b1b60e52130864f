import PaintBench.CommandLine.Arguments
import PaintBench.CommandLine.Outside
import PaintBench.Worker.Transport

/-!
# The program

The program runs a batch and prints its report, or, told to be a worker, answers one
request. A batch runs its workers in processes of their own, unless it is told not to;
such a process is the program itself, told to be a worker, and is stopped when it takes
too long. A program that waits for a worker without end has no outcome.
-/

namespace PaintBench.CommandLine

/-- What the program finds: its files, its input, the time, and the other programs. -/
structure Setting (σ : Type) where
  disk : Disk
  input : List Char
  startedAt : Instant
  programs : σ

/-- What the program leaves: its exit code, its output, and everything else. -/
structure Outcome (σ : Type) where
  exitCode : Nat
  output : String
  disk : Disk
  programs : σ

/-- The name of the program. -/
def programName : String := "bench-runner"

/-- The version of the program. -/
def versionText : String := programName ++ " 0.1.0\n"

/-- What the program says about itself. -/
def helpText : String :=
  "Benchmark web UI framework implementations in Chromium\n\nUsage: bench-runner [OPTIONS]\n"

variable {σ : Type}

/-- What a batch leaves for the next attempt: the files and the other programs. -/
structure Remains (σ : Type) where
  disk : Disk
  programs : σ

/-- How often a loop of the program without any other bound is repeated. -/
def patience : Nat := 1000000000

/-- The number of the task of every attempt. No session opens here, so no worker is brought down,
and nothing else shows the number. -/
def attemptTask : Nat := 1

/-- Let the worker of the program do something among the other programs. -/
def asWorker {α : Type} (host : Host σ) (auditTool : String) (custom : List TimedBenchmark)
    (act : Worker (Outside σ) → StateM (Surroundings (Outside σ)) α) : StateM (Remains σ) α :=
  fun r =>
    let (a, s) :=
      act ⟨Outside.world host auditTool r.disk, custom, patience⟩ ⟨⟨r.programs, none⟩, r.disk⟩
    (a, ⟨s.disk, s.outside.programs⟩)

/-- Run a worker inside the program. -/
def dispatchInside (host : Host σ) (auditTool : String) (custom : List TimedBenchmark)
    (q : WorkerRequest) : OptionT (StateM (Remains σ)) WorkerResponse :=
  OptionT.mk (asWorker host auditTool custom fun w => w.dispatch attemptTask q)

/-- Answer the request on the input. -/
def answerInput (host : Host σ) (auditTool : String) (custom : List TimedBenchmark)
    (input : List Char) : StateM (Remains σ) Worker.Ending :=
  asWorker host auditTool custom fun w => w.serve attemptTask input

/-- The configuration that the arguments name. -/
def loadConfig (d : Disk) : Option String → Except ConfigError Config
  | none => .ok .standard
  | some path => Config.ofFile d path

/-- The outcome of a process that ended with an exit code and an output. -/
def ended (code : Nat) (output : List Char) : ChildOutcome :=
  .finished (.code code) (Text.Utf8.encode output) []

/-- What becomes of a worker in a process of its own, which is stopped at the limit. -/
def workerProcess (host : Host σ) (limit : Duration) (a : WorkerArguments) (input : List Char)
    (r : Remains σ) : ChildOutcome × Remains σ :=
  match loadConfig r.disk a.config, (WorkerRequest.receive input).1 with
  | .error _, _ => (ended 1 [], r)
  | .ok c, .request q =>
    let attempt (w : Worker (Outside σ)) :=
      w.carryOut (Run.within limit.ticks (Worker.execute w.custom q))
    match asWorker host a.auditTool c.benchmarks attempt r with
    | (.ok (some response), r) => (ended 0 response.line, r)
    | (.error (.crashed text), r) => (ended 0 (Worker.crashed attemptTask text).line, r)
    | (.ok none, r) | (.error .stuck, r) | (.error .expired, r) => (.timedOut, r)
  | .ok c, _ =>
    match answerInput host a.auditTool c.benchmarks input r with
    | (ending, r) =>
      (ending.output?.elim .timedOut fun (code, output) => ended code output, r)

/-- What becomes of the program itself in another process. Only as a worker does it
answer. -/
def ownProcess (host : Host σ) (limit : Duration) (c : Command) (r : Remains σ) :
    ChildOutcome × Remains σ :=
  match c.fault?, read c.args with
  | some reason, _ => (.notStarted reason, r)
  | none, some (.worker a) =>
    if limit.ticks = 0 then (.timedOut, r) else workerProcess host limit a c.input r
  | none, _ => (ended 2 [], r)

/-- Run a worker in a process of its own. -/
def dispatchOutside (host : Host σ) (limit : Duration) (a : WorkerArguments)
    (q : WorkerRequest) : StateM (Remains σ) WorkerResponse := fun r =>
  let (outcome, r) :=
    ownProcess host limit (WorkerProcess.command programName a.toList q) r
  (WorkerProcess.response programName limit outcome, r)

/-- The configuration with the changes that the arguments ask for. -/
def BatchArguments.change (a : BatchArguments) (c : Config) : Config :=
  let run := match a.count with
    | some count => c.run.withCount count
    | none => c.run
  { c with
    run := { run with
      port := a.port.getD run.port
      headless := run.headless || a.headless
      chromeBinary := a.chromeBinary.or run.chromeBinary
      writeResults := run.writeResults && !a.noResults }
    batch := { c.batch with
      exitOnError := c.batch.exitOnError || a.exitOnError
      forkWorker := c.batch.forkWorker && !a.noFork } }

/-- Run the batch of a configuration. -/
def runBatch (host : Host σ) (a : BatchArguments) (c : Config) (catalog : Catalog) :
    OptionT (StateM (Remains σ)) (Except Batch.Aborted (List Batch.PairOutcome)) :=
  let dispatch (q : WorkerRequest) : OptionT (StateM (Remains σ)) WorkerResponse :=
    if c.batch.forkWorker then dispatchOutside host c.batch.workerTimeout a.forWorker q
    else dispatchInside host a.auditTool c.benchmarks q
  Batch.run dispatch c.batch c.run (selectImplementations c.implementations a.frameworks)
    (catalog.select a.benchmarks)

/-- Run a batch and write its report. -/
def batch (host : Host σ) (a : BatchArguments) (s : Setting σ) : Option (Outcome σ) :=
  let stop (code : Nat) (r : Remains σ) : Outcome σ := ⟨code, "", r.disk, r.programs⟩
  let start : Remains σ := ⟨s.disk, s.programs⟩
  match (loadConfig s.disk a.config).map a.change with
  | .error _ => some (stop 1 start)
  | .ok c =>
    match Catalog.withCustom c.run c.benchmarks with
    | .error _ => some (stop 1 start)
    | .ok catalog =>
      match (runBatch host a c catalog).run start with
      | (none, _) => none
      | (some (.error _), r) => some (stop 1 r)
      | (some (.ok outcomes), r) =>
        let report : Batch.Report := ⟨s.startedAt, outcomes⟩
        some ⟨if report.isSuccess then 0 else 1, report.text a.format, r.disk, r.programs⟩

/-- Answer the request on the input. -/
def worker (host : Host σ) (a : WorkerArguments) (s : Setting σ) : Option (Outcome σ) :=
  match loadConfig s.disk a.config with
  | .error _ => some ⟨1, "", s.disk, s.programs⟩
  | .ok c =>
    let (ending, r) := answerInput host a.auditTool c.benchmarks s.input ⟨s.disk, s.programs⟩
    ending.output?.map fun (code, output) => ⟨code, String.ofList output, r.disk, r.programs⟩

/-- Run the program. -/
def run (host : Host σ) (args : List String) (s : Setting σ) : Option (Outcome σ) :=
  match read args with
  | none => some ⟨2, "", s.disk, s.programs⟩
  | some .help => some ⟨0, helpText, s.disk, s.programs⟩
  | some .version => some ⟨0, versionText, s.disk, s.programs⟩
  | some (.batch a) => batch host a s
  | some (.worker a) => worker host a s

end PaintBench.CommandLine
