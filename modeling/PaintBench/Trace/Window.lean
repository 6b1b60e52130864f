import PaintBench.RunError
import PaintBench.Trace.Event

/-!
# Run windows

A trace covers all iterations of a run. The part from the marker of the run phase to the
marker that finishes it is the window of an iteration, and `runWindows` finds the windows:
what stands before the first init marker is page load, each finished marker closes a
segment, and a segment with anything but run markers in it has a window.

`cpuDurations` measures each window from the click to the end of the last paint and
checks that the window makes sense; `memorySamples` reads the heap off the last garbage
collection of each window.
-/

namespace PaintBench.Trace

/-- The segments of a list that an element closes, without the closing elements. What
follows the last of them is left out. -/
def closedSegments {ι : Type} (closes : ι → Bool) : List ι → List (List ι)
  | [] => []
  | a :: rest =>
    if closes a then [] :: closedSegments closes rest
    else
      match closedSegments closes rest with
      | [] => []
      | segment :: segments => (a :: segment) :: segments

/-- The windows of a list whose elements announce phases. -/
def windowsBy {ι : Type} (phase? : ι → Option Phase) (events : List ι) : List (List ι) :=
  let fromInit := events.dropWhile (phase? · != some .init)
  let segments := closedSegments (phase? · == some .finished) fromInit
  (segments.filter (·.any (phase? · != some .run))).map
    (·.dropWhile (phase? · != some .run))

/-- The run windows of a trace. -/
def runWindows {α : Type} (events : List (Event α)) : List (List (Event α)) :=
  windowsBy Event.phase? events

/-- The run windows of a trace as the places where they start and their lengths; an empty
window has no place. -/
def runPlaces {α : Type} (events : List (Event α)) : List (Option (Nat × Nat)) :=
  (windowsBy (·.1.phase?) events.zipIdx).map fun window =>
    window.head?.map fun e => (e.2, window.length)

/-- More paints than expected were seen in a window. -/
structure PaintWarning where
  window : Nat
  paints : Nat
  maxExpected : Nat
deriving DecidableEq, Repr

/-- What the windows of a run yield: a duration in milliseconds for each, and
warnings. -/
structure CpuSamples (α : Type) where
  durations : List α
  warnings : List PaintWarning
deriving DecidableEq, Repr

variable {α : Type} [Quantity α]

/-- The greatest of some numbers. -/
def greatest : List α → Option α
  | [] => none
  | a :: rest => some (rest.foldl Quantity.max a)

/-- The paints from the first click of a window on. -/
def paintsAfterClick (events : List (Event α)) : List (Event α) :=
  (events.dropWhile (!·.isClick)).filter Event.isPaint

/-- Microseconds in milliseconds. -/
def milliseconds (us : α) : α :=
  us / Quantity.ofNat 1000

/-- The duration of a window that has its click and its paints: from the click to the end
of the last paint. It must be positive and fit into the window. -/
def checkedDuration (window : Nat) (start finish click lastPaint : α) :
    Except (Soundness α) α :=
  let span := milliseconds (finish - start)
  let duration := milliseconds (lastPaint - click)
  if duration < Quantity.ofNat 0 then .error (.negativeDuration window duration)
  else if span < duration then .error (.exceedsWindow window duration span)
  else .ok duration

/-- The duration of a window and the number of its paints. -/
def windowDuration (window : Nat) (events : List (Event α)) (limits : Nat × Nat) :
    Except (Soundness α) (α × Nat) :=
  let clicks := events.filter Event.isClick
  let paints := (paintsAfterClick events).map Event.finish
  match clicks, events.head?, greatest (events.map Event.finish) with
  | click :: _, some first, some finish =>
    if clicks.length ≠ limits.1 then .error (.clickCount window limits.1 clicks.length)
    else
      match greatest paints with
      | none => .error (.noPaint window)
      | some lastPaint =>
        (checkedDuration window first.ts finish click.ts lastPaint).map (·, paints.length)
  | _, _, _ => .error (.clickCount window limits.1 clicks.length)

/-- Measure the windows from the given one on, up to the first one that makes no sense. -/
def measureWindows (limits : Nat × Nat) : Nat → List (List (Event α)) →
    Except (Soundness α) (CpuSamples α)
  | _, [] => .ok ⟨[], []⟩
  | window, events :: rest => do
    let (duration, paints) ← windowDuration window events limits
    let samples ← measureWindows limits (window + 1) rest
    let warnings := if limits.2 < paints then [⟨window, paints, limits.2⟩] else []
    .ok ⟨duration :: samples.durations, warnings ++ samples.warnings⟩

/-- The duration of each run window of a trace, of which there have to be as many as
expected. `limits` are the clicks a window needs and the paints that raise no warning. -/
def cpuDurations (events : List (Event α)) (expected : Nat) (limits : Nat × Nat) :
    Except (Soundness α) (CpuSamples α) := do
  let samples ← measureWindows limits 0 (runWindows events)
  if samples.durations.length = expected then .ok samples
  else .error (.sampleCount "cpu" expected samples.durations.length)

/-- The heap after the last garbage collection of each window from the given one on. -/
def lastHeaps : Nat → List (List (Event α)) → Except (Soundness α) (List α)
  | _, [] => .ok []
  | window, events :: rest =>
    match events.reverse.findSome? Event.heap? with
    | none => .error (.missingGc window)
    | some heap => (lastHeaps (window + 1) rest).map (heap :: ·)

/-- The heap after the last garbage collection of each run window. -/
def memorySamples (events : List (Event α)) : Except (Soundness α) (List α) :=
  lastHeaps 0 (runWindows events)

end PaintBench.Trace
