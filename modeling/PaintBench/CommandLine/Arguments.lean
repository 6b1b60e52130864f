import PaintBench.Batch.Report
import PaintBench.Config

/-!
# Arguments of the command line

The arguments are options, each with a name after two dashes, and at most one command.
An option takes no value, one value or several; a value may follow an equals sign. What
starts with a dash is never taken for a value.
-/

namespace PaintBench.CommandLine

/-- How many values an option takes. -/
inductive Arity where
  | none
  | one
  | several
deriving DecidableEq, Repr

/-- An option with its values. -/
structure Occurrence where
  name : String
  values : List String
deriving DecidableEq, Repr

/-- What ends the options. -/
inductive Ending where
  | finished
  | help
  | version
  | command (name : String) (args : List String)
deriving DecidableEq, Repr

/-- Whether an argument may be the value of an option. -/
def isValue (arg : String) : Bool :=
  arg == "-" || arg.toList.head? != some '-'

/-- The name of an option, and the value after an equals sign. -/
def splitOption (arg : List Char) : String × Option String :=
  match Text.splitOnce '=' arg with
  | some (name, value) => (String.ofList name, some (String.ofList value))
  | none => (String.ofList arg, none)

/-- The options that a command knows. -/
structure Grammar where
  /-- how many values an option takes; unknown options have no answer -/
  arity : String → Option Arity
  /-- whether the version can be asked for -/
  hasVersion : Bool

/-- The values of an option, with the value after the equals sign or from the arguments
that follow, and what is left of these. -/
def valuesOf (arity : Arity) (attached : Option String) (rest : List String) :
    Option (List String × List String) :=
  match arity, attached, rest with
  | .none, none, rest => some ([], rest)
  | .none, some _, _ => none
  | _, some value, rest => some ([value], rest)
  | .one, none, value :: rest => if isValue value then some ([value], rest) else none
  | .one, none, [] => none
  | .several, none, rest =>
    let values := rest.takeWhile isValue
    if values.isEmpty then none else some (values, rest.drop values.length)

/-- Take the options off the arguments, up to what ends them. -/
def scan (g : Grammar) : Nat → List String → Option (List Occurrence × Ending)
  | 0, _ => none
  | _, [] => some ([], .finished)
  | steps + 1, arg :: rest =>
    let version := if g.hasVersion then some ([], Ending.version) else none
    match arg.toList with
    | ['-', '-'] => if rest.isEmpty then some ([], .finished) else none
    | '-' :: '-' :: body =>
      match splitOption body with
      | ("help", none) => some ([], .help)
      | ("version", none) => version
      | (name, attached) => do
        let (values, rest) ← valuesOf (← g.arity name) attached rest
        let (occurrences, ending) ← scan g steps rest
        some (⟨name, values⟩ :: occurrences, ending)
    | '-' :: 'h' :: _ => some ([], .help)
    | '-' :: 'V' :: _ => version
    | '-' :: _ :: _ => none
    | _ => some ([], .command arg rest)

/-! ## The options of a batch -/

/-- The arguments for a batch. -/
structure BatchArguments where
  config : Option String
  frameworks : List String
  benchmarks : List String
  count : Option UInt32
  exitOnError : Bool
  noResults : Bool
  headless : Bool
  chromeBinary : Option String
  noFork : Bool
  port : Option UInt16
  auditTool : String
  format : Batch.ReportFormat
deriving DecidableEq, Repr

/-- The audit tool where none is named. -/
def standardAuditTool : String := "lighthouse"

/-- The arguments where nothing is said. -/
def BatchArguments.standard : BatchArguments where
  config := none
  frameworks := []
  benchmarks := []
  count := none
  exitOnError := false
  noResults := false
  headless := false
  chromeBinary := none
  noFork := false
  port := none
  auditTool := standardAuditTool
  format := .console

/-- How many values the options of a batch take. -/
def batchArity : String → Option Arity
  | "config" | "count" | "chrome-binary" | "port" | "lighthouse" | "format" => some .one
  | "framework" | "benchmark" => some .several
  | "exit-on-error" | "no-results" | "headless" | "no-fork" => some .none
  | _ => none

/-- The options of a batch. -/
def batchGrammar : Grammar := ⟨batchArity, true⟩

/-- How many values the options of a worker take. -/
def workerArity : String → Option Arity
  | "config" | "lighthouse" => some .one
  | _ => none

/-- The options of a worker. -/
def workerGrammar : Grammar := ⟨workerArity, false⟩

/-- A whole number below a bound, with an optional sign. -/
def number? (bound : Nat) (text : String) : Option Nat :=
  let (negative, digits) := match text.toList with
    | '-' :: rest => (true, rest)
    | '+' :: rest => (false, rest)
    | s => (false, s)
  let n := Decimal.valueOf digits
  if digits.isEmpty || !digits.all Char.isDigit || bound ≤ n || (negative && n != 0) then none
  else some n

/-- A text that is not empty. -/
def nonEmpty? (text : String) : Option String :=
  if text.isEmpty then none else some text

/-- Take an option into the arguments of a batch. -/
def BatchArguments.take (a : BatchArguments) (o : Occurrence) : Option BatchArguments :=
  match o.name, o.values with
  | "framework", values => some { a with frameworks := a.frameworks ++ values }
  | "benchmark", values => some { a with benchmarks := a.benchmarks ++ values }
  | "exit-on-error", _ => some { a with exitOnError := true }
  | "no-results", _ => some { a with noResults := true }
  | "headless", _ => some { a with headless := true }
  | "no-fork", _ => some { a with noFork := true }
  | "config", [path] => (nonEmpty? path).map fun path => { a with config := some path }
  | "chrome-binary", [path] =>
    (nonEmpty? path).map fun path => { a with chromeBinary := some path }
  | "lighthouse", [path] => (nonEmpty? path).map fun path => { a with auditTool := path }
  | "count", [n] => (number? UInt32.size n).map fun n => { a with count := some (.ofNat n) }
  | "port", [n] => (number? UInt16.size n).map fun n => { a with port := some (.ofNat n) }
  | "format", [name] =>
    (Batch.ReportFormat.ofName? name).map fun format => { a with format }
  | _, _ => none

/-- Take options into the arguments of a batch. -/
def BatchArguments.takeAll (a : BatchArguments) : List Occurrence → Option BatchArguments
  | [] => some a
  | o :: rest => do (← a.take o).takeAll rest

/-- The arguments for a worker. -/
structure WorkerArguments where
  config : Option String
  auditTool : String
deriving DecidableEq, Repr

/-- The options of a batch that a worker knows as well. -/
def BatchArguments.forWorker (a : BatchArguments) : WorkerArguments :=
  ⟨a.config, a.auditTool⟩

/-- The arguments that tell a worker what the batch was told. -/
def WorkerArguments.toList (a : WorkerArguments) : List String :=
  ["worker"] ++ (match a.config with
    | some path => ["--config", path]
    | none => []) ++ ["--lighthouse", a.auditTool]

/-- What the command line asks for. -/
inductive Invocation where
  | batch (a : BatchArguments)
  | worker (a : WorkerArguments)
  | help
  | version
deriving DecidableEq, Repr

/-- Whether no option but those with several values occurs twice. -/
def areSingle (occurrences : List Occurrence) : Bool :=
  let names := (occurrences.map (·.name)).filter fun name => batchArity name != some .several
  names.eraseDups.length == names.length

/-- The options before the ending, if they are in order. -/
def options? (g : Grammar) (args : List String) : Option (BatchArguments × Ending) := do
  let (occurrences, ending) ← scan g (args.length + 1) args
  if areSingle occurrences then
    let a ← BatchArguments.standard.takeAll occurrences
    some (a, ending)
  else none

/-- Read the arguments of a worker. -/
def readWorker (args : List String) : Option Invocation := do
  match ← options? workerGrammar args with
  | (a, .finished) => some (.worker a.forWorker)
  | (_, .help) => some .help
  | _ => none

/-- Read the arguments. -/
def read (args : List String) : Option Invocation := do
  match ← options? batchGrammar args with
  | (a, .finished) => some (.batch a)
  | (_, .help) => some .help
  | (_, .version) => some .version
  | (_, .command "worker" rest) => readWorker rest
  | (_, .command "help" []) | (_, .command "help" ["worker"]) => some .help
  | (_, .command ..) => none

end PaintBench.CommandLine
