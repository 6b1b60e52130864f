import PaintBench.Results.Persist
import PaintBench.Session.World

/-!
# Runs

`Run` is the monad of everything that talks to the outside. A run has a clock, which
stands still while the run computes and jumps ahead while it waits; it keeps a journal of
the requests that were answered; and it writes its results to a disk. A deadline may be
set for a part of a run (`within`). What is due exactly at the deadline still happens.

An `Attempt` is a run that may fail with one of the failures a run can end with.
-/

namespace PaintBench

/-- Why a run stops without a result. -/
inductive Halt where
  /-- the deadline has passed -/
  | expired
  /-- the run waits for what never happens, without a deadline -/
  | stuck
  | crashed (text : String)
deriving DecidableEq, Repr

/-- A request and its answer. -/
structure Exchange where
  time : Nat
  request : Request
  answer : request.Answer

/-- What a run may rely on while it runs. -/
structure Terms (σ : Type) where
  world : World σ
  deadline : Option Nat
  /-- how often a loop without any other bound is repeated -/
  patience : Nat

/-- What changes while a run runs. -/
structure Situation (σ : Type) where
  /-- the time since the start, in milliseconds -/
  now : Nat
  outside : σ
  /-- how many sessions have been opened -/
  sessions : Nat
  /-- what was asked and answered, latest first -/
  journal : List Exchange
  disk : Disk

/-- A situation at the start. -/
def Situation.start {σ : Type} (outside : σ) (disk : Disk) : Situation σ :=
  ⟨0, outside, 0, [], disk⟩

/-- Computations that talk to the outside. -/
abbrev Run (σ : Type) := ReaderT (Terms σ) (ExceptT Halt (StateM (Situation σ)))

/-- Runs that may fail. -/
abbrev Attempt (σ : Type) := ExceptT RunError (Run σ)

namespace Run

variable {σ α : Type}

/-- The outcome of a run from a situation, and the situation it leaves. -/
def outcome (run : Run σ α) (terms : Terms σ) (s : Situation σ) :
    Except Halt α × Situation σ :=
  run terms s

/-- Whether something may still happen at a time. -/
def Terms.allows (terms : Terms σ) (time : Nat) : Bool :=
  match terms.deadline with
  | none => true
  | some deadline => time ≤ deadline

/-- Wait for something that does not happen in time, or never does. -/
def hang : Run σ α := fun terms s =>
  match terms.deadline with
  | none => (.error .stuck, s)
  | some deadline => (.error .expired, { s with now := max s.now deadline })

/-- Let some milliseconds pass, `longestSleep` at most. -/
def sleep (ms : Nat) : Run σ Unit := fun terms s =>
  let time := s.now + min ms longestSleep
  if Terms.allows terms time then (.ok (), { s with now := time })
  else hang terms s

/-- The time since the start. -/
def clock : Run σ Nat := fun _ s =>
  (.ok s.now, s)

/-- Stop if the deadline has come. -/
def endTurn : Run σ Unit := fun terms s =>
  match terms.deadline with
  | none => (.ok (), s)
  | some deadline => if s.now < deadline then (.ok (), s) else (.error .expired, s)

/-- Put a request to the outside and wait for the answer. -/
def ask (r : Request) : Run σ r.Answer := fun terms s =>
  let (receipt, outside) := terms.world.receive r s.outside
  let s := { s with outside }
  match receipt with
  | .crash text => (.error (.crashed text), s)
  | .never => hang terms s
  | .after ms =>
    let time := s.now + ms
    if Terms.allows terms time then
      let (answer, outside) := terms.world.answer r time s.outside
      (.ok answer, { s with now := time, outside, journal := ⟨time, r, answer⟩ :: s.journal })
    else hang terms s

/-- A run that has to end within some milliseconds; `none` if it does not. -/
def within (limit : Nat) (run : Run σ α) : Run σ (Option α) := fun terms s =>
  let own := s.now + limit
  let deadline := match terms.deadline with
    | none => own
    | some outer => min outer own
  match run { terms with deadline := some deadline } s with
  | (.ok a, s) => (.ok (some a), s)
  | (.error .expired, s) =>
    if Terms.allows terms own then (.ok none, s) else (.error .expired, s)
  | (.error halt, s) => (.error halt, s)

/-- The next session number. -/
def nextSession : Run σ SessionId := fun _ s =>
  (.ok s.sessions, { s with sessions := s.sessions + 1 })

/-- Stop the run. -/
def crash (text : String) : Run σ α := fun _ s =>
  (.error (.crashed text), s)

/-- How often a loop without any other bound is repeated. -/
def patience : Run σ Nat := fun terms s =>
  (.ok terms.patience, s)

/-- Work on the disk. -/
def onDisk (work : Disk → α × Disk) : Run σ α := fun _ s =>
  let (a, disk) := work s.disk
  (.ok a, { s with disk })

end Run

namespace Attempt

variable {σ α : Type}

/-- A failure. -/
def fail (e : RunError) : Attempt σ α :=
  throw e

/-- The result of a computation that takes no time. -/
def ofExcept (result : Except RunError α) : Attempt σ α :=
  ExceptT.mk (pure result)

/-- Open a session. -/
def openSession (options : RunOptions) : Attempt σ SessionId := ExceptT.mk do
  let answer : Except SessionError Unit ← Run.ask (.openSession options)
  match answer with
  | .ok () => return .ok (← Run.nextSession)
  | .error e => return .error (.session e)

/-- Make a call on a session. -/
def call (session : SessionId) (c : Call) : Attempt σ c.Reply := ExceptT.mk do
  let answer : Except SessionError c.Reply ← Run.ask (.call session c)
  return answer.mapError .session

/-- The report of an audit of a page. -/
def audit (url : String) (options : RunOptions) : Attempt σ Json :=
  ExceptT.mk (Run.ask (.audit url options))

/-- Write the results of a run. Samples without an order bring the run down. -/
def persist (options : RunOptions) (i : Implementation) (b : Benchmark) (samples : Samples)
    (expected : Nat) : Attempt σ Unit := ExceptT.mk do
  let outcome ← Run.onDisk ((ResultWriter.ofOptions options).persist i b samples expected)
  match outcome with
  | .written _ => return .ok ()
  | .failed e => return .error e
  | .unordered range => Run.crash range.message

end Attempt

end PaintBench
