import PaintBench.Results.Disk
import PaintBench.Results.Record

/-!
# Persisting results

A completed run writes one file for each result kind. A kind is complete when it has
exactly as many values as expected and none of them is missing. Complete kinds are
written even when another kind of the run is incomplete; the first incomplete one is then
the failure.
-/

namespace PaintBench

/-- Where results go, and whether they are written at all. -/
structure ResultWriter where
  directory : String
  enabled : Bool
deriving DecidableEq, Repr

/-- How persisting ends: with the paths written, with a failure, or not at all because
samples that are not numbers have no summary. -/
inductive PersistOutcome where
  | written (paths : List String)
  | failed (e : RunError)
  | unordered (range : Stats.Unordered Float)

namespace ResultWriter

/-- The writer of a run. -/
def ofOptions (o : RunOptions) : ResultWriter :=
  ⟨o.resultsDirectory, o.writeResults⟩

/-- The path of the file of a result kind. -/
def pathOf (w : ResultWriter) (i : Implementation) (kindId : String) : String :=
  joinPath w.directory (resultFileName i.fullName kindId)

/-- The values of a result kind, if it is complete; else how many values it has. -/
def completeValues (expected : Nat) (extracted : List (Option Float)) :
    Except Nat (List Float) :=
  let values := extracted.filterMap id
  if extracted.length = expected ∧ values.length = expected then .ok values
  else .error values.length

/-- Write the result kinds one after the other. `written` are the paths so far, in
reverse, and `incomplete` is the first incomplete kind so far. -/
def persistKinds (w : ResultWriter) (i : Implementation) (b : Benchmark) (samples : Samples)
    (expected : Nat) : List ResultKind → List String → Option (Soundness Float) → Disk →
    PersistOutcome × Disk
  | [], written, none, d => (.written written.reverse, d)
  | [], _, some e, d => (.failed (.soundness e), d)
  | kind :: rest, written, incomplete, d =>
    match completeValues expected (b.extract samples kind.id) with
    | .error actual =>
      let e := incomplete.getD (.sampleCount kind.id expected actual)
      persistKinds w i b samples expected rest written (some e) d
    | .ok values =>
      match ResultRecord.of i kind values with
      | .error range => (.unordered range, d)
      | .ok none => persistKinds w i b samples expected rest written incomplete d
      | .ok (some record) =>
        if w.enabled then
          let path := w.pathOf i kind.id
          match d.write path record.text with
          | .error fault => (.failed (.results fault.message), d)
          | .ok d => persistKinds w i b samples expected rest (path :: written) incomplete d
        else persistKinds w i b samples expected rest written incomplete d

/-- Write every result kind of a run, after making the results directory. -/
def persist (w : ResultWriter) (i : Implementation) (b : Benchmark) (samples : Samples)
    (expected : Nat) (d : Disk) : PersistOutcome × Disk :=
  if w.enabled then
    match d.createDirs w.directory with
    | (.error fault, d) => (.failed (.results fault.message), d)
    | (.ok (), d) => persistKinds w i b samples expected b.resultKinds [] none d
  else persistKinds w i b samples expected b.resultKinds [] none d

end ResultWriter

end PaintBench
