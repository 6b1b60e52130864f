import PaintBench.Simulation.Browser
import PaintBench.Session.World

/-!
# The simulated outside

A `Stage` is a whole outside: sessions that are opened and driven, an audit tool, and
faults that hit chosen calls. Calls are counted by name over all sessions, and a fault
says by that count which calls it hits.
-/

namespace PaintBench

/-- The short name of a call. -/
def Call.name : Call → String
  | navigate _ => "navigate"
  | documentBody => "body"
  | shadowRoot _ => "shadow"
  | query .. => "query"
  | click _ => "click"
  | text _ => "text"
  | attributeOf .. => "attribute"
  | mark _ => "mark"
  | collectGarbage => "gc"
  | setThrottling _ => "throttle"
  | usedHeap => "heap"
  | drain => "drain"
  | close => "close"

/-- The short name of a request; audits have none. -/
def Request.name? : Request → Option String
  | openSession _ => some "open"
  | call _ c => some c.name
  | audit .. => none

namespace Simulation

/-- What is wrong with some calls of a name. -/
structure Fault where
  call : String
  /-- the number of the first call that it hits, from one on -/
  first : Nat
  /-- how many calls it hits -/
  count : Nat
  /-- how long the call takes, in milliseconds -/
  delay : Nat
  /-- how the call fails, if it does -/
  error : Option SessionError
  /-- the words with which the call brings the run down, if it does -/
  crash : Option String

/-- Whether a fault hits a call. -/
def Fault.hits (f : Fault) (name : String) (number : Nat) : Bool :=
  f.call == name && f.first ≤ number && number < f.first + f.count

/-- The state of the simulated outside. -/
structure Stage where
  behaviour : Behaviour
  faults : List Fault
  /-- how often the calls were received, by name -/
  counts : List (String × Nat)
  browsers : Array Browser
  /-- the answers of the audit tool; the last one is repeated -/
  audits : List (Except RunError Json)
  /-- the pages that were audited, the latest first -/
  audited : List String

namespace Stage

/-- How often a call was received. -/
def countOf (stage : Stage) (name : String) : Nat :=
  (stage.counts.lookup name).getD 0

/-- Count a call. -/
def count (stage : Stage) (name : String) : Stage :=
  { stage with
    counts := (name, stage.countOf name + 1) :: stage.counts.filter (·.1 != name) }

/-- The fault that hits the call received last; the last one where several do. -/
def faultOf (stage : Stage) (name : String) : Option Fault :=
  stage.faults.reverse.find? (·.hits name (stage.countOf name))

/-- The failure of the call received last. -/
def failureOf (stage : Stage) (name : String) : Option SessionError :=
  (stage.faultOf name).bind Fault.error

/-- Receive a call. Opening a session takes no time. -/
def receiveCall (stage : Stage) (name : String) : Receipt :=
  match stage.faultOf name with
  | none => .after 0
  | some f =>
    match f.crash with
    | some text => .crash text
    | none => .after (if name = "open" then 0 else min f.delay longestSleep)

/-- Receive a request. -/
def receive (r : Request) (stage : Stage) : Receipt × Stage :=
  match r.name? with
  | none => (.after 0, stage)
  | some name =>
    let stage := stage.count name
    (stage.receiveCall name, stage)

/-- Open a session with an empty page. -/
def openBrowser (stage : Stage) : Except SessionError Unit × Stage :=
  match stage.failureOf "open" with
  | some e => (.error e, stage)
  | none => (.ok (), { stage with browsers := stage.browsers.push (.fresh .blank) })

/-- Answer a call. -/
def answerCall (stage : Stage) (session : SessionId) (c : Call) (time : Nat) :
    Except SessionError c.Reply × Stage :=
  match stage.failureOf c.name, stage.browsers[session]? with
  | some e, _ => (.error e, stage)
  | none, none => (.error .closed, stage)
  | none, some b =>
    let (reply, b) := b.answer stage.behaviour time c
    (reply, { stage with browsers := stage.browsers.setIfInBounds session b })

/-- The report of the next audit. -/
def nextAudit (stage : Stage) : Except RunError Json :=
  match stage.audits[stage.audited.length]? with
  | some result => result
  | none => stage.audits.getLast?.getD (.error (.audit "no report"))

/-- Answer a request. -/
def answer : (r : Request) → Nat → Stage → r.Answer × Stage
  | .openSession _, _, stage => stage.openBrowser
  | .call session c, time, stage => stage.answerCall session c time
  | .audit url _, _, stage =>
    (stage.nextAudit, { stage with audited := url :: stage.audited })

/-- The simulated outside. -/
def world : World Stage where
  receive := receive
  answer := answer

/-- Carry out a mutation in a session now, or plan it for later. -/
def plan (stage : Stage) (session : SessionId) (time delay : Nat) (m : Mutation) : Stage :=
  { stage with browsers := stage.browsers.modify session fun b =>
      (b.settle time).plan time delay m }

end Stage

end Simulation

end PaintBench
