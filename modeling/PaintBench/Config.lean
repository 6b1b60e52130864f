import PaintBench.Catalog.Benchmark
import PaintBench.Results.Disk
import PaintBench.Toml.Document

/-!
# Configurations

A configuration says what a batch runs and how: the options of runs, the policy of the
batch, the implementations, and benchmarks beside the standard suite. It is written as a
TOML text. `Config.ofText` accepts no configuration with a custom startup benchmark or
without any attempts.
-/

namespace PaintBench

/-- The configuration of a batch. -/
structure Config where
  run : RunOptions
  batch : BatchOptions
  implementations : List Implementation
  benchmarks : List TimedBenchmark

/-- Why there is no configuration. -/
inductive ConfigError where
  | unreadableFile (path : String)
  | malformed
  | customStartup (id : String)
  | noAttempts
deriving DecidableEq, Repr

/-- The message of a failure. -/
def ConfigError.message : ConfigError → String
  | unreadableFile path => "Failed to read config file: " ++ path
  | malformed => "Failed to parse TOML configuration"
  | customStartup id => "Custom benchmark '" ++ id ++ "' cannot use the startup kind"
  | noAttempts => "orchestrator.max_attempts must be at least 1"

namespace Config

/-- The configuration where nothing is said. -/
def standard : Config := ⟨.standard, .standard, [], []⟩

/-- The fields in their order. -/
def fields : List String := ["run", "orchestrator", "frameworks", "benchmarks"]

/-- A list of field values without those that are one too many. -/
def cut (fields : List String) : Json → Json
  | .arr values => .arr (values.take fields.length)
  | j => j

/-- The options of a run, where the lists of field values may be longer than the fields. -/
def cutRun (j : Json) : Json :=
  let inner (name : String) (j : Json) := if name = "extraction" then cut Limits.fields j else j
  match j with
  | .obj members => .obj (members.map fun (name, j) => (name, inner name j))
  | .arr values => .arr (List.zipWith inner RunOptions.fields values)
  | j => j

/-- Read a configuration. A list of field values may be longer than the fields. -/
def decode (j : Json) : Option Config := do
  let r ← Json.Record.of? fields j
  let run ← r.withDefault "run" (RunOptions.decode ∘ cutRun) .standard
  let batch ←
    r.withDefault "orchestrator" (BatchOptions.decode ∘ cut BatchOptions.fields) .standard
  let implementations ← r.withDefault "frameworks"
    (Json.Decode.list (Implementation.decode ∘ cut Implementation.fields)) []
  let benchmarks ← r.withDefault "benchmarks" (Json.Decode.list TimedBenchmark.decode) []
  some { run, batch, implementations, benchmarks }

/-- Write a configuration. -/
def encode (c : Config) : Json :=
  .obj [
    ("run", c.run.encode),
    ("orchestrator", c.batch.encode),
    ("frameworks", .arr (c.implementations.map Implementation.encode)),
    ("benchmarks", .arr (c.benchmarks.map TimedBenchmark.encode))]

/-- Accept a configuration, or say what is wrong with it. -/
def validate (c : Config) : Except ConfigError Config :=
  match c.benchmarks.find? (·.info.kind == .startup) with
  | some b => .error (.customStartup b.info.id)
  | none => if c.batch.maxAttempts = 0 then .error .noAttempts else .ok c

/-- Read the text of a configuration. -/
def ofText (text : String) : Except ConfigError Config :=
  match (Toml.parse? text).bind decode with
  | none => .error .malformed
  | some c => c.validate

/-- Read the file of a configuration. -/
def ofFile (d : Disk) (path : String) : Except ConfigError Config :=
  match d.read? path with
  | none => .error (.unreadableFile path)
  | some text => ofText text

end Config

end PaintBench
