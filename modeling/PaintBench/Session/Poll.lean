import PaintBench.Session.Run

/-!
# Polling

A run waits for a condition by asking again and again: at once, and then whenever the
poll interval has passed. A failure counts as "not yet". `pollUntil` never gives up by
itself; the limit of a wait is a deadline around it. Polls without any interval between
them come in turns, and the deadline counts only between two turns.

`Script` is an outside in which the condition answers by a fixed sequence.
-/

namespace PaintBench

namespace Run

variable {σ : Type}

/-- How many pauses without any length follow each other before a run looks at its
deadline. -/
def pausesPerTurn : Nat := 128

/-- How many polls a limit leaves room for. -/
def pollBudget (interval limit : Nat) : Run σ Nat :=
  if interval = 0 then patience else return limit / min interval longestSleep + 1

/-- A pause between two polls, when `pauses` more of no length are left in this turn. The
result is what is left after it. A pause of no length ends a run whose turn is over and
whose deadline has come. -/
def pause (interval pauses : Nat) : Run σ Nat := do
  if interval ≠ 0 then
    sleep interval
    return pausesPerTurn - 1
  else if pauses = 0 then
    endTurn
    return pausesPerTurn - 1
  else return pauses - 1

/-- Poll a condition until it holds, a number of times at most, when `pauses` more of no
length are left in this turn. A poll that takes time starts a turn. -/
def pollUntil (interval : Nat) (condition : Attempt σ Bool) : Nat → Nat → Run σ Unit
  | _, 0 => hang
  | pauses, polls + 1 => do
    let start ← clock
    let held ← condition.run
    match held with
    | .ok true => return ()
    | _ =>
      let finish ← clock
      let pauses ← pause interval (if finish = start then pauses else pausesPerTurn - 1)
      pollUntil interval condition pauses polls

end Run

/-- Poll a condition until it holds or the limit is over. -/
def Attempt.waitUntil {σ : Type} (interval : Duration) (description : String) (limit : Duration)
    (condition : Attempt σ Bool) : Attempt σ Unit := ExceptT.mk do
  let polls ← Run.pollBudget interval.ticks limit.ticks
  let polling := Run.pollUntil interval.ticks condition Run.pausesPerTurn polls
  match ← Run.within limit.ticks polling with
  | some () => return .ok ()
  | none => return .error (.timeout description limit)

/-- How a poll of a scripted condition ends. -/
inductive Poll where
  | holds
  | doesNotHold
  | fails (e : RunError)
  /-- it never ends -/
  | hangs

/-- An outside whose state counts the polls of a scripted condition. -/
abbrev Script := Nat

namespace Script

/-- A condition that answers by a sequence. -/
def condition (polls : Nat → Poll) : Attempt Script Bool := ExceptT.mk fun terms s =>
  let s' := { s with outside := s.outside + 1 }
  match polls s.outside with
  | .holds => (.ok (.ok true), s')
  | .doesNotHold => (.ok (.ok false), s')
  | .fails e => (.ok (.error e), s')
  | .hangs => Run.hang terms s'

end Script

end PaintBench
