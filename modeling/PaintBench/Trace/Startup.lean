import PaintBench.Json.Decode
import PaintBench.Quantity

/-!
# Startup metrics

An audit tool reports on the loading of a page as a JSON value. `StartupMetrics.ofReport`
reads the four metrics of interest; each may be missing.
-/

namespace PaintBench

/-- A metric of a startup audit. -/
inductive StartupMetric where
  | interactive
  | bootupTime
  | mainThreadWorkCost
  | totalKilobyteWeight
deriving DecidableEq, Repr

/-- The metrics of one audit. Times are in milliseconds. -/
structure StartupMetrics where
  interactive : Option Float
  bootupTime : Option Float
  mainThreadWorkCost : Option Float
  totalKilobyteWeight : Option Float

namespace StartupMetrics

/-- A metric. -/
def get (m : StartupMetrics) : StartupMetric → Option Float
  | .interactive => m.interactive
  | .bootupTime => m.bootupTime
  | .mainThreadWorkCost => m.mainThreadWorkCost
  | .totalKilobyteWeight => m.totalKilobyteWeight

/-- The least bootup time that is reported. -/
def minBootupTime : Float := 16

/-- The audits of a report, at its top level or else below `lhr`. -/
def audits? (report : Json) : Option Json :=
  (report.get? "audits").or (report.at? ["lhr", "audits"])

/-- The numeric value of an audit. -/
def auditValue (report : Json) (id : String) : Option Float :=
  (audits? report).bind fun audits =>
    (audits.at? [id, "numericValue"]).bind Json.float?

/-- The metrics of a report. -/
def ofReport (report : Json) : StartupMetrics where
  interactive := auditValue report "interactive"
  bootupTime := (auditValue report "bootup-time").map (Quantity.max · minBootupTime)
  mainThreadWorkCost := auditValue report "mainthread-work-breakdown"
  totalKilobyteWeight := (auditValue report "total-byte-weight").map (· / 1024)

/-- The fields in their order. -/
def fields : List String :=
  ["interactive", "bootup_time", "main_thread_work_cost", "total_kilobyte_weight"]

/-- Read metrics. -/
def decode (j : Json) : Option StartupMetrics := do
  let r ← Json.Record.of? fields j
  let interactive ← r.optional "interactive" Json.Decode.float
  let bootupTime ← r.optional "bootup_time" Json.Decode.float
  let mainThreadWorkCost ← r.optional "main_thread_work_cost" Json.Decode.float
  let totalKilobyteWeight ← r.optional "total_kilobyte_weight" Json.Decode.float
  some { interactive, bootupTime, mainThreadWorkCost, totalKilobyteWeight }

/-- Write metrics. -/
def encode (m : StartupMetrics) : Json :=
  .obj [
    ("interactive", .ofOption .ofFloat m.interactive),
    ("bootup_time", .ofOption .ofFloat m.bootupTime),
    ("main_thread_work_cost", .ofOption .ofFloat m.mainThreadWorkCost),
    ("total_kilobyte_weight", .ofOption .ofFloat m.totalKilobyteWeight)]

end StartupMetrics

end PaintBench
