import PaintBench.RunError
import PaintBench.RunOptions
import PaintBench.Trace.Event

/-!
# The outside of a run

A run asks the outside for three things: a fresh browser session, one of the calls on a
session, and the audit of a page. The type of the answer depends on the request.
Sessions are numbered in the order in which they were opened.

A `World` is everything that answers the requests of a run: the browser, the pages and
the audit tool, with their state. A request is first received, which settles how long the
answer takes, and then answered. A request given up before its answer is due has been
received and never happens.
-/

namespace PaintBench

/-! ## Requests -/

/-- A node of a page. A session may hand out a node that its page has dropped since;
every call on such a node fails. -/
abbrev Node := Nat

/-- A session, by its place among the opened ones. -/
abbrev SessionId := Nat

/-- A call on a session. -/
inductive Call where
  /-- load an address and wait until that is done -/
  | navigate (url : String)
  /-- the body of the page, if there is one -/
  | documentBody
  /-- the shadow root below the first element that the selector matches -/
  | shadowRoot (host : String)
  /-- the first node below a node that the selector matches -/
  | query (scope : Node) (selector : String)
  | click (node : Node)
  | text (node : Node)
  | attributeOf (node : Node) (name : String)
  /-- announce a phase in the trace -/
  | mark (phase : Phase)
  | collectGarbage
  /-- slow the processor down; a rate of one ends the slowdown -/
  | setThrottling (rate : Float)
  /-- the heap in use, in megabytes -/
  | usedHeap
  /-- take the records of the performance log since the last drain -/
  | drain
  | close

/-- What a successful call answers. -/
def Call.Reply : Call → Type
  | navigate _ | click _ | mark _ | collectGarbage | setThrottling _ | close => Unit
  | documentBody | shadowRoot _ | query .. => Option Node
  | text _ => String
  | attributeOf .. => Option String
  | usedHeap => Float
  | drain => List String

/-- A request to the outside. -/
inductive Request where
  | openSession (options : RunOptions)
  | call (session : SessionId) (c : Call)
  | audit (url : String) (options : RunOptions)

/-- What a request is answered with. -/
def Request.Answer : Request → Type
  | openSession _ => Except SessionError Unit
  | call _ c => Except SessionError c.Reply
  | audit .. => Except RunError Json

/-! ## Slowing the processor down

A rate of two makes the processor half as fast, a rate of one is its own speed. There is
no speeding up. -/

/-- Whether a rate slows down, or changes nothing. What is not a number is no rate. -/
def isThrottlingRate (rate : Float) : Bool :=
  1 ≤ rate

/-- What is wrong with a rate. -/
def throttlingFault? (rate : Float) : Option String :=
  if isThrottlingRate rate then none
  else some ("CPU throttling rate must be >= 1.0 (got " ++ showNumber rate ++ ")")

/-! ## Answers -/

/-- The longest time in milliseconds that anything sleeps, thirty years of 365 days. Longer
sleeps end after it. -/
def longestSleep : Nat := 30 * 365 * 86400 * 1000

/-- What becomes of a request that was received. -/
inductive Receipt where
  /-- it will be answered after some milliseconds -/
  | after (ms : Nat)
  /-- it will never be answered -/
  | never
  /-- it brings the whole run down -/
  | crash (text : String)
deriving DecidableEq, Repr

/-- A deterministic outside with states of type `σ`. Times are in milliseconds. -/
structure World (σ : Type) where
  receive : Request → σ → Receipt × σ
  /-- the answer at the time when it is due -/
  answer : (r : Request) → (time : Nat) → σ → r.Answer × σ

end PaintBench
