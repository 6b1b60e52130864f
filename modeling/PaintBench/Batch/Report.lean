import PaintBench.Batch.Batch
import PaintBench.Batch.Instant
import PaintBench.Json.Printer

/-!
# Reports

A report lists how the pairs of a batch ended. It is written as JSON or as a text with
the warnings, the errors and a closing line.
-/

namespace PaintBench.Batch

/-- The report of a batch. -/
structure Report where
  startedAt : Instant
  outcomes : List PairOutcome
deriving DecidableEq, Repr

/-- The forms of a report. -/
inductive ReportFormat where
  | json
  | prettyJson
  | console
deriving DecidableEq, Repr

/-- The form where none is asked for. -/
def ReportFormat.standard : ReportFormat := console

/-- The form of a name. -/
def ReportFormat.ofName? : String → Option ReportFormat
  | "json" => some json
  | "json-pretty" => some prettyJson
  | "console" => some console
  | _ => none

/-- Write how a pair ended. -/
def PairOutcome.encode (o : PairOutcome) : Json :=
  .obj [
    ("framework", .str o.framework),
    ("benchmark", .str o.benchmark),
    ("attempts", .ofNat o.attempts),
    ("errors", .ofStrings o.errors),
    ("warnings", .ofStrings o.warnings)]

namespace Report

/-- The warnings of all pairs. -/
def warnings (r : Report) : List String :=
  r.outcomes.flatMap PairOutcome.warnings

/-- The errors of all pairs. -/
def errors (r : Report) : List String :=
  r.outcomes.flatMap PairOutcome.errors

/-- Whether no pair ended with an error. -/
def isSuccess (r : Report) : Bool :=
  r.errors.isEmpty

/-- Write a report. -/
def encode (r : Report) : Json :=
  .obj [
    ("started_at", .str r.startedAt.dataText),
    ("outcomes", .arr (r.outcomes.map PairOutcome.encode))]

/-- Lines, each with its line break. -/
def unlines (lines : List String) : String :=
  String.join (lines.map (· ++ "\n"))

/-- The line above and below a title. -/
def rule : String := "================================"

/-- Lines under a title, if there are any. -/
def titled (title : String) (lines : List String) : List String :=
  if lines.isEmpty then [] else [rule, title, rule] ++ lines

/-- The closing line about the pairs. -/
def countLine (r : Report) : String :=
  let retried := r.outcomes.countP (1 < ·.attempts)
  s!"Ran {r.outcomes.length} benchmark(s) started at " ++ r.startedAt.messageText ++
    s!" ({retried} retried)"

/-- The closing line about the whole. -/
def statusLine (r : Report) : String :=
  if r.isSuccess then "successful run" else "run was not completely successful"

/-- The report as a text. -/
def consoleText (r : Report) : String :=
  unlines (titled "The following warnings were logged:" r.warnings ++
    titled "The following benchmarks failed:" r.errors ++ [r.countLine, r.statusLine])

/-- The report in a form. -/
def text (r : Report) : ReportFormat → String
  | .json => r.encode.compact
  | .prettyJson => r.encode.pretty
  | .console => r.consoleText

end Report

end PaintBench.Batch
