import PaintBench.Quantity

/-!
# Timing events

A trace is a list of events: clicks, paints, garbage collections, navigations, and the
markers that announce the phases of an iteration. Times are in microseconds.
-/

namespace PaintBench

/-- A phase of an iteration. -/
inductive Phase where
  | init
  | run
  | finished
  | after
deriving DecidableEq, Repr

namespace Phase

/-- The message that announces a phase in the trace. -/
def marker : Phase → String
  | init => "initBenchmark"
  | run => "runBenchmark"
  | finished => "finishedBenchmark"
  | after => "afterBenchmark"

/-- The phase that a message announces. -/
def ofMarker? : String → Option Phase
  | "initBenchmark" => some init
  | "runBenchmark" => some run
  | "finishedBenchmark" => some finished
  | "afterBenchmark" => some after
  | _ => none

/-- The name of a phase. -/
def name : Phase → String
  | init => "Init"
  | run => "Run"
  | finished => "Finished"
  | after => "After"

/-- The phase of a name. -/
def ofName? : String → Option Phase
  | "Init" => some init
  | "Run" => some run
  | "Finished" => some finished
  | "After" => some after
  | _ => none

theorem ofMarker?_marker (p : Phase) : ofMarker? p.marker = some p := by
  cases p <;> rfl

theorem ofName?_name (p : Phase) : ofName? p.name = some p := by
  cases p <;> rfl

end Phase

/-- An event of a trace. -/
inductive Event (α : Type) where
  | click (ts dur : α)
  | paint (ts dur : α)
  /-- a garbage collection and the heap it left, in megabytes -/
  | gc (ts heap : α)
  | navigationStart (ts : α)
  | marker (phase : Phase) (ts : α)
deriving DecidableEq, Repr

namespace Event

variable {α : Type}

/-- When an event starts. -/
def ts : Event α → α
  | click ts _ | paint ts _ | gc ts _ | navigationStart ts | marker _ ts => ts

/-- When an event ends. Only clicks and paints last. -/
def finish [Add α] : Event α → α
  | click ts dur | paint ts dur => ts + dur
  | gc ts _ | navigationStart ts | marker _ ts => ts

/-- The phase that an event announces. -/
def phase? : Event α → Option Phase
  | marker phase _ => some phase
  | _ => none

/-- Whether an event is a click. -/
def isClick : Event α → Bool
  | click .. => true
  | _ => false

/-- Whether an event is a paint. -/
def isPaint : Event α → Bool
  | paint .. => true
  | _ => false

/-- The heap that a garbage collection left. -/
def heap? : Event α → Option α
  | gc _ heap => some heap
  | _ => none

end Event

end PaintBench
