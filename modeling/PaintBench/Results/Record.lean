import PaintBench.Catalog.Benchmark
import PaintBench.Json.Printer
import PaintBench.Stats.Summary

/-!
# Result records

A result file holds one record: whose result it is, the values, and their summary.
-/

namespace PaintBench

/-- The content of a result file. -/
structure ResultRecord where
  /-- the full name of the implementation -/
  framework : String
  keyed : Bool
  /-- the id of the result kind -/
  benchmark : String
  /-- the word for the kind -/
  kind : String
  min : Float
  max : Float
  mean : Float
  median : Float
  geometricMean : Float
  standardDeviation : Float
  values : List Float

namespace ResultRecord

/-- The record of a summary. -/
def ofSummary (i : Implementation) (kind : ResultKind) (values : List Float)
    (s : Stats.Summary Float) : ResultRecord where
  framework := i.fullName
  keyed := i.keyed
  benchmark := kind.id
  kind := kind.kind.word
  min := s.min
  max := s.max
  mean := s.mean
  median := s.median
  geometricMean := s.geometricMean
  standardDeviation := s.stdDev
  values := values

/-- The record of some values; there is none without values. -/
def of (i : Implementation) (kind : ResultKind) (values : List Float) :
    Except (Stats.Unordered Float) (Option ResultRecord) :=
  (Stats.summarize values).map fun summary => summary.map (ofSummary i kind values)

/-- The fields in their order. -/
def fields : List String :=
  ["framework", "keyed", "benchmark", "type", "min", "max", "mean", "median",
    "geometricMean", "standardDeviation", "values"]

/-- Read a record. -/
def decode (j : Json) : Option ResultRecord := do
  let r ← Json.Record.of? fields j
  let framework ← r.required "framework" Json.Decode.text
  let keyed ← r.required "keyed" Json.Decode.truth
  let benchmark ← r.required "benchmark" Json.Decode.text
  let kind ← r.required "type" Json.Decode.text
  let min ← r.required "min" Json.Decode.float
  let max ← r.required "max" Json.Decode.float
  let mean ← r.required "mean" Json.Decode.float
  let median ← r.required "median" Json.Decode.float
  let geometricMean ← r.required "geometricMean" Json.Decode.float
  let standardDeviation ← r.required "standardDeviation" Json.Decode.float
  let values ← r.required "values" (Json.Decode.list Json.Decode.float)
  some {
    framework, keyed, benchmark, kind, min, max, mean, median, geometricMean,
    standardDeviation, values }

/-- Write a record. -/
def encode (r : ResultRecord) : Json :=
  .obj [
    ("framework", .str r.framework),
    ("keyed", .bool r.keyed),
    ("benchmark", .str r.benchmark),
    ("type", .str r.kind),
    ("min", .ofFloat r.min),
    ("max", .ofFloat r.max),
    ("mean", .ofFloat r.mean),
    ("median", .ofFloat r.median),
    ("geometricMean", .ofFloat r.geometricMean),
    ("standardDeviation", .ofFloat r.standardDeviation),
    ("values", .arr (r.values.map .ofFloat))]

/-- The text of a result file. -/
def text (r : ResultRecord) : String :=
  r.encode.compact

end ResultRecord

namespace Stats

/-- The message of a range that is not in order. -/
def Unordered.message (range : Unordered Float) : String :=
  "min > max, or either was NaN. min = " ++ showNumber range.min ++ ", max = " ++
    showNumber range.max

/-- The fields of a summary in their order. -/
def Summary.fields : List String :=
  ["count", "min", "max", "mean", "median", "geometric_mean", "std_dev"]

/-- Read a summary. -/
def Summary.decode (j : Json) : Option (Summary Float) := do
  let r ← Json.Record.of? Summary.fields j
  let count ← r.required "count" (Json.Decode.below UInt64.size)
  let min ← r.required "min" Json.Decode.float
  let max ← r.required "max" Json.Decode.float
  let mean ← r.required "mean" Json.Decode.float
  let median ← r.required "median" Json.Decode.float
  let geometricMean ← r.required "geometric_mean" Json.Decode.float
  let stdDev ← r.required "std_dev" Json.Decode.float
  some { count, min, max, mean, median, geometricMean, stdDev }

/-- Write a summary. -/
def Summary.encode (s : Summary Float) : Json :=
  .obj [
    ("count", .ofNat s.count),
    ("min", .ofFloat s.min),
    ("max", .ofFloat s.max),
    ("mean", .ofFloat s.mean),
    ("median", .ofFloat s.median),
    ("geometric_mean", .ofFloat s.geometricMean),
    ("std_dev", .ofFloat s.stdDev)]

end Stats

end PaintBench
