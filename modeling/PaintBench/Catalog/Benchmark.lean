import PaintBench.Catalog.Step
import PaintBench.RunOptions
import PaintBench.Trace.Startup

/-!
# Benchmarks

A benchmark is timed or the startup audit. A timed benchmark has three hooks of steps and
is measured from the trace; the startup audit hands the page to an audit tool. Each has
result kinds, one result file a kind, and `Benchmark.extract` finds the values of a kind
among the samples of a run.
-/

namespace PaintBench

/-- What a benchmark is. -/
structure BenchmarkInfo where
  id : String
  label : String
  description : String
  kind : BenchmarkKind
  /-- the slowdown of the processor during the run hook -/
  throttle : Option Float

/-- A benchmark that drives the page and is measured from the trace. -/
structure TimedBenchmark where
  info : BenchmarkInfo
  init : List Step
  run : List Step
  after : List Step

/-- A benchmark of one of the two shapes. -/
inductive Benchmark where
  | timed (b : TimedBenchmark)
  | startup (info : BenchmarkInfo)

/-- A result file that a benchmark produces. -/
structure ResultKind where
  id : String
  label : String
  description : String
  kind : BenchmarkKind
deriving DecidableEq, Repr

/-- What the iterations of a run yield, one entry each. -/
inductive Samples where
  | timed (values : List Float)
  | startup (reports : List StartupMetrics)

namespace BenchmarkInfo

/-- The result kind of a benchmark with a single one. -/
def resultKind (info : BenchmarkInfo) : ResultKind :=
  ⟨info.id, info.label, info.description, info.kind⟩

/-- The fields in their order. -/
def fields : List String := ["id", "label", "description", "kind", "throttle"]

/-- The members that describe a benchmark. -/
def members (info : BenchmarkInfo) : List (String × Json) :=
  [("id", .str info.id),
    ("label", .str info.label),
    ("description", .str info.description),
    ("kind", info.kind.encode),
    ("throttle", .ofOption .ofFloat info.throttle)]

/-- Write what a benchmark is. -/
def encode (info : BenchmarkInfo) : Json :=
  .obj info.members

/-- Read a kind among the members of a benchmark, where an empty object may stand for
its missing value. -/
def decodeKind : Json → Option BenchmarkKind
  | .obj [(s, .obj [])] => BenchmarkKind.ofWord? s
  | j => BenchmarkKind.decode j

/-- Read what a benchmark is from the members that describe it. -/
def ofRecord (r : Json.Record) : Option BenchmarkInfo := do
  let id ← r.required "id" Json.Decode.text
  let label ← r.required "label" Json.Decode.text
  let description ← r.withDefault "description" Json.Decode.text ""
  let kind ← r.required "kind" decodeKind
  let throttle ← r.optionalOrMissing "throttle" Json.Decode.float
  some { id, label, description, kind, throttle }

end BenchmarkInfo

namespace TimedBenchmark

/-- Read a benchmark from an object that holds its description and its hooks. -/
def decodeMembers (j : Json) : Option TimedBenchmark := do
  let r ← Json.Record.ofObject? (BenchmarkInfo.fields ++ ["init", "run", "after"]) j
  let info ← BenchmarkInfo.ofRecord r
  let hook (name : String) := r.withDefault name (Json.Decode.list Step.decode) []
  let init ← hook "init"
  let run ← hook "run"
  let after ← hook "after"
  some { info, init, run, after }

/-- Read a benchmark, every part of which counts. -/
def decode : Json → Option TimedBenchmark :=
  Json.Decode.entire decodeMembers

/-- Write a benchmark. -/
def encode (b : TimedBenchmark) : Json :=
  let hook (steps : List Step) := Json.arr (steps.map Step.encode)
  .obj (b.info.members ++
    [("init", hook b.init), ("run", hook b.run), ("after", hook b.after)])

end TimedBenchmark

/-- The result kinds of the startup audit, each with the metric it reports. -/
def startupResults : List (ResultKind × StartupMetric) :=
  [(⟨"31_startup-ci", "consistently interactive",
      "a pessimistic TTI - when the CPU and network are both definitely very idle. " ++
        "(no more CPU tasks over 50ms)",
      .startup⟩, .interactive),
    (⟨"32_startup-bt", "script bootup time",
      "the total ms required to parse/compile/evaluate all the page's scripts",
      .startup⟩, .bootupTime),
    (⟨"34_startup-totalbytes", "total kilobyte weight",
      "network transfer cost (post-compression) of all the resources loaded into the page.",
      .startup⟩, .totalKilobyteWeight)]

/-- The metric that the result kind of an id reports. -/
def startupMetric? (id : String) : Option StartupMetric :=
  (startupResults.find? (·.1.id == id)).map (·.2)

namespace Benchmark

/-- What a benchmark is. -/
def info : Benchmark → BenchmarkInfo
  | timed b => b.info
  | startup info => info

/-- The id of a benchmark. -/
def id (b : Benchmark) : String := b.info.id

/-- The kind of a benchmark. -/
def kind (b : Benchmark) : BenchmarkKind := b.info.kind

/-- The hook that prepares the page. -/
def initHook : Benchmark → List Step
  | timed b => b.init
  | startup _ => []

/-- The hook that is measured. -/
def runHook : Benchmark → List Step
  | timed b => b.run
  | startup _ => []

/-- The hook after the measured one. -/
def afterHook : Benchmark → List Step
  | timed b => b.after
  | startup _ => []

/-- The result kinds of a benchmark. -/
def resultKinds : Benchmark → List ResultKind
  | timed b => [b.info.resultKind]
  | startup _ => startupResults.map (·.1)

/-- The values of a result kind, one an iteration; `none` where an iteration has no
value. Samples of the other shape have no values at all. -/
def extract (b : Benchmark) (samples : Samples) (kindId : String) : List (Option Float) :=
  match b, samples with
  | timed _, .timed values => values.map some
  | startup _, .startup reports =>
    match startupMetric? kindId with
    | some metric => reports.map (·.get metric)
    | none => []
  | _, _ => []

end Benchmark

end PaintBench
