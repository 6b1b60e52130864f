import PaintBench.Duration
import PaintBench.Implementation
import PaintBench.Text.Search

/-!
# Options of a run

`RunOptions` are handed to every worker, `Limits` are the event counts that the
extraction of timings checks, and `BatchOptions` are the policy of a whole batch. Every
field has a default, and a field that is missing from the JSON form takes it. Where a default
is more than on, off or nothing it has a name, which `standard` and `decode` share. Paths are
texts, since no others have a JSON form.
-/

namespace PaintBench

/-- What a benchmark measures. -/
inductive BenchmarkKind where
  /-- the time from the click to the last paint, in milliseconds -/
  | cpu
  /-- the heap after the run, in megabytes -/
  | memory
  /-- metrics of an audit of the page -/
  | startup
deriving DecidableEq, Repr

namespace BenchmarkKind

/-- The word for a kind in files and reports. -/
def word : BenchmarkKind → String
  | cpu => "cpu"
  | memory => "memory"
  | startup => "startup"

/-- The kind of a word. -/
def ofWord? : String → Option BenchmarkKind
  | "cpu" => some cpu
  | "memory" => some memory
  | "startup" => some startup
  | _ => none

/-- Read a kind: its word, or an object whose only member has that name and no value. -/
def decode : Json → Option BenchmarkKind
  | .str s => ofWord? s
  | .obj [(s, .null)] => ofWord? s
  | _ => none

/-- Write a kind. -/
def encode (k : BenchmarkKind) : Json :=
  .str k.word

end BenchmarkKind

/-- Thresholds for the events of one run window. -/
structure Limits where
  /-- how many clicks a window needs -/
  expectedClicks : UInt64
  /-- how many paints after the click raise no warning -/
  maxExpectedPaints : UInt64
deriving DecidableEq, Repr

namespace Limits

def defaultExpectedClicks : UInt64 := 1

def defaultMaxExpectedPaints : UInt64 := 2

/-- One click, and up to two paints. -/
def standard : Limits := ⟨defaultExpectedClicks, defaultMaxExpectedPaints⟩

/-- The fields in their order. -/
def fields : List String := ["expected_clicks", "max_expected_paints"]

/-- Read limits. -/
def decode (j : Json) : Option Limits := do
  let r ← Json.Record.of? fields j
  let expectedClicks ←
    r.withDefault "expected_clicks" Json.Decode.uint64 defaultExpectedClicks
  let maxExpectedPaints ←
    r.withDefault "max_expected_paints" Json.Decode.uint64 defaultMaxExpectedPaints
  some { expectedClicks, maxExpectedPaints }

/-- Write limits. -/
def encode (l : Limits) : Json :=
  .obj [
    ("expected_clicks", .ofNat l.expectedClicks.toNat),
    ("max_expected_paints", .ofNat l.maxExpectedPaints.toNat)]

end Limits

/-- Options handed to every worker. -/
structure RunOptions where
  repeatRun : UInt32
  repeatRunMemory : UInt32
  repeatRunStartup : UInt32
  /-- warm-up interactions of the init hooks -/
  warmupCount : UInt32
  /-- the port of the server with the implementations -/
  port : UInt16
  /-- the port over which the audit tool reaches its browser -/
  remoteDebuggingPort : UInt16
  headless : Bool
  chromeBinary : Option String
  /-- the limit of waits inside run hooks -/
  timeout : Duration
  /-- the limit for the first element an init hook waits for -/
  shortTimeout : Duration
  /-- the time from one poll to the next -/
  pollInterval : Duration
  /-- whether the slowdown ends with the run hook -/
  resetThrottle : Bool
  writeResults : Bool
  resultsDirectory : String
  extraction : Limits
deriving DecidableEq, Repr

namespace RunOptions

def defaultRepeatRun : UInt32 := 10

def defaultRepeatRunMemory : UInt32 := 5

def defaultRepeatRunStartup : UInt32 := 4

def defaultWarmupCount : UInt32 := 5

def defaultPort : UInt16 := 8080

def defaultRemoteDebuggingPort : UInt16 := 9999

def defaultTimeout : Duration := .ofMilliseconds 60000

def defaultShortTimeout : Duration := .ofMilliseconds 20000

def defaultPollInterval : Duration := .ofMilliseconds 100

def defaultResultsDirectory : String := "results"

/-- The options where nothing is said. -/
def standard : RunOptions where
  repeatRun := defaultRepeatRun
  repeatRunMemory := defaultRepeatRunMemory
  repeatRunStartup := defaultRepeatRunStartup
  warmupCount := defaultWarmupCount
  port := defaultPort
  remoteDebuggingPort := defaultRemoteDebuggingPort
  headless := false
  chromeBinary := none
  timeout := defaultTimeout
  shortTimeout := defaultShortTimeout
  pollInterval := defaultPollInterval
  resetThrottle := true
  writeResults := true
  resultsDirectory := defaultResultsDirectory
  extraction := Limits.standard

/-- The options with another number of iterations. The expensive kinds of run keep their
own number where that is smaller. -/
def withCount (o : RunOptions) (count : UInt32) : RunOptions :=
  { o with
    repeatRun := count
    repeatRunMemory := min count o.repeatRunMemory
    repeatRunStartup := min count o.repeatRunStartup }

/-- How often a benchmark of a kind is measured. -/
def iterationsFor (o : RunOptions) : BenchmarkKind → Nat
  | .cpu => o.repeatRun.toNat
  | .memory => o.repeatRunMemory.toNat
  | .startup => o.repeatRunStartup.toNat

/-- A text without the slashes at either end. -/
def trimSlashes (s : String) : String :=
  let start := s.toList.dropWhile (· = '/')
  String.ofList (start.reverse.dropWhile (· = '/')).reverse

/-- The address of an implementation on the local server. -/
def urlFor (o : RunOptions) (i : Implementation) : String :=
  s!"http://localhost:{o.port.toNat}/" ++ trimSlashes i.uri ++ "/index.html"

/-- The fields in their order. -/
def fields : List String :=
  ["repeat_run", "repeat_run_mem", "repeat_run_startup", "warmup_count", "port",
    "remote_debugging_port", "headless", "chrome_binary", "timeout", "short_timeout",
    "poll_interval", "reset_throttle", "write_results", "results_directory", "extraction"]

/-- Read options. -/
def decode (j : Json) : Option RunOptions := do
  let r ← Json.Record.of? fields j
  let repeatRun ← r.withDefault "repeat_run" Json.Decode.uint32 defaultRepeatRun
  let repeatRunMemory ←
    r.withDefault "repeat_run_mem" Json.Decode.uint32 defaultRepeatRunMemory
  let repeatRunStartup ←
    r.withDefault "repeat_run_startup" Json.Decode.uint32 defaultRepeatRunStartup
  let warmupCount ← r.withDefault "warmup_count" Json.Decode.uint32 defaultWarmupCount
  let port ← r.withDefault "port" Json.Decode.uint16 defaultPort
  let remoteDebuggingPort ←
    r.withDefault "remote_debugging_port" Json.Decode.uint16 defaultRemoteDebuggingPort
  let headless ← r.withDefault "headless" Json.Decode.truth false
  let chromeBinary ← r.optionalOrMissing "chrome_binary" Json.Decode.text
  let timeout ← r.withDefault "timeout" Duration.decode defaultTimeout
  let shortTimeout ← r.withDefault "short_timeout" Duration.decode defaultShortTimeout
  let pollInterval ← r.withDefault "poll_interval" Duration.decode defaultPollInterval
  let resetThrottle ← r.withDefault "reset_throttle" Json.Decode.truth true
  let writeResults ← r.withDefault "write_results" Json.Decode.truth true
  let resultsDirectory ←
    r.withDefault "results_directory" Json.Decode.text defaultResultsDirectory
  let extraction ← r.withDefault "extraction" Limits.decode Limits.standard
  some {
    repeatRun, repeatRunMemory, repeatRunStartup, warmupCount, port, remoteDebuggingPort,
    headless, chromeBinary, timeout, shortTimeout, pollInterval, resetThrottle,
    writeResults, resultsDirectory, extraction }

/-- Write options. -/
def encode (o : RunOptions) : Json :=
  .obj [
    ("repeat_run", .ofNat o.repeatRun.toNat),
    ("repeat_run_mem", .ofNat o.repeatRunMemory.toNat),
    ("repeat_run_startup", .ofNat o.repeatRunStartup.toNat),
    ("warmup_count", .ofNat o.warmupCount.toNat),
    ("port", .ofNat o.port.toNat),
    ("remote_debugging_port", .ofNat o.remoteDebuggingPort.toNat),
    ("headless", .bool o.headless),
    ("chrome_binary", .ofOption .str o.chromeBinary),
    ("timeout", o.timeout.encode),
    ("short_timeout", o.shortTimeout.encode),
    ("poll_interval", o.pollInterval.encode),
    ("reset_throttle", .bool o.resetThrottle),
    ("write_results", .bool o.writeResults),
    ("results_directory", .str o.resultsDirectory),
    ("extraction", o.extraction.encode)]

end RunOptions

/-- The policy of a batch. -/
structure BatchOptions where
  /-- how often a pair is tried -/
  maxAttempts : UInt32
  /-- whether the first error ends the batch -/
  exitOnError : Bool
  /-- whether every attempt runs in a process of its own -/
  forkWorker : Bool
  /-- the limit for such a process -/
  workerTimeout : Duration
  /-- failure messages that make an attempt worth another try -/
  flakySignatures : List String
deriving DecidableEq, Repr

namespace BatchOptions

def defaultMaxAttempts : UInt32 := 5

def defaultWorkerTimeout : Duration := .ofMilliseconds 600000

def defaultFlakySignatures : List String := ["Server terminated early with status 1"]

/-- The policy where nothing is said. -/
def standard : BatchOptions where
  maxAttempts := defaultMaxAttempts
  exitOnError := false
  forkWorker := true
  workerTimeout := defaultWorkerTimeout
  flakySignatures := defaultFlakySignatures

/-- The fields in their order. -/
def fields : List String :=
  ["max_attempts", "exit_on_error", "fork_worker", "worker_timeout", "flaky_signatures"]

/-- Read a policy. -/
def decode (j : Json) : Option BatchOptions := do
  let r ← Json.Record.of? fields j
  let maxAttempts ← r.withDefault "max_attempts" Json.Decode.uint32 defaultMaxAttempts
  let exitOnError ← r.withDefault "exit_on_error" Json.Decode.truth false
  let forkWorker ← r.withDefault "fork_worker" Json.Decode.truth true
  let workerTimeout ← r.withDefault "worker_timeout" Duration.decode defaultWorkerTimeout
  let flakySignatures ←
    r.withDefault "flaky_signatures" (Json.Decode.list Json.Decode.text) defaultFlakySignatures
  some { maxAttempts, exitOnError, forkWorker, workerTimeout, flakySignatures }

/-- Write a policy. -/
def encode (o : BatchOptions) : Json :=
  .obj [
    ("max_attempts", .ofNat o.maxAttempts.toNat),
    ("exit_on_error", .bool o.exitOnError),
    ("fork_worker", .bool o.forkWorker),
    ("worker_timeout", o.workerTimeout.encode),
    ("flaky_signatures", .ofStrings o.flakySignatures)]

end BatchOptions

end PaintBench
