import PaintBench.Duration

/-!
# Failures of a run

A run ends early for one of the causes in `RunError`. `SessionError` are the failures of
the browser session itself, `Soundness` the findings that a completed run does not
measure what it should. Every cause has one message.
-/

namespace PaintBench

/-- Failures of a browser session. -/
inductive SessionError where
  | launch (detail : String)
  | protocol (detail : String)
  | script (detail : String)
  | staleElement
  | closed
deriving DecidableEq, Repr

namespace SessionError

/-- The message of a session failure. -/
def message : SessionError → String
  | launch detail => "Failed to launch browser: " ++ detail
  | protocol detail => "Browser protocol error: " ++ detail
  | script detail => "Script evaluation failed: " ++ detail
  | staleElement => "Element reference is stale"
  | closed => "Session is closed"

end SessionError

/-- What is wrong with the trace or the samples of a completed run. Windows are counted
from zero. -/
inductive Soundness (α : Type) where
  | clickCount (window expected found : Nat)
  | noPaint (window : Nat)
  | negativeDuration (window : Nat) (duration : α)
  | exceedsWindow (window : Nat) (duration span : α)
  | missingGc (window : Nat)
  | sampleCount (resultKind : String) (expected actual : Nat)
deriving DecidableEq, Repr

/-- A number inside a message. -/
def showNumber (x : Float) : String :=
  String.ofList (Decimal.Layout.plain.write x)

namespace Soundness

/-- The message of a finding. -/
def message : Soundness Float → String
  | clickCount window expected found =>
    s!"exactly {expected} click event(s) expected in run window {window}, found {found}"
  | noPaint window =>
    s!"at least one paint event is expected after the click event in run window {window}"
  | negativeDuration window duration =>
    "soundness check failed. reported duration " ++ showNumber duration ++
      s!"ms is less than 0 in run window {window}"
  | exceedsWindow window duration span =>
    "soundness check failed. reported duration " ++ showNumber duration ++
      "ms is bigger than the whole run window (" ++ showNumber span ++
      s!"ms) in run window {window}"
  | missingGc window => s!"no gc event recorded in run window {window}"
  | sampleCount resultKind expected actual =>
    s!"soundness check failed. expected {expected} result(s) for " ++ resultKind ++
      s!", got {actual}"

end Soundness

/-- Everything that can end a run. -/
inductive RunError where
  | session (e : SessionError)
  | soundness (e : Soundness Float)
  /-- a wait up to its limit that was in vain -/
  | timeout (description : String) (limit : Duration)
  | invalidPath (path reason : String)
  | notFound (what : String)
  | audit (detail : String)
  | results (detail : String)
  | unknownBenchmark (id : String)
  | internal (detail : String)

namespace RunError

/-- The message of a failure. -/
def message : RunError → String
  | session e => e.message
  | soundness e => e.message
  | timeout description limit =>
    "Timed out after " ++ limit.text ++ " waiting for " ++ description
  | invalidPath path reason => "Invalid element path '" ++ path ++ "': " ++ reason
  | notFound what => "Element not found: " ++ what
  | audit detail => "Audit failed: " ++ detail
  | results detail => "Failed to write results: " ++ detail
  | unknownBenchmark id => "Benchmark " ++ id ++ " is not known"
  | internal detail => detail

/-- Whether a failure is a breakdown of the browser or the process, and not a finding
about completed work. -/
def isTechnical : RunError → Bool
  | soundness _ => false
  | _ => true

end RunError

end PaintBench
