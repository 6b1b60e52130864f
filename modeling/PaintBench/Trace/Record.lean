import PaintBench.Json.Decode
import PaintBench.Json.Parser
import PaintBench.Session.Run
import PaintBench.Trace.Event

/-!
# Records of the performance log

The performance log of a browser is a list of JSON texts. A record names a method and has
parameters, and may be wrapped into a member `message` of another object. `classify` maps
a text to the timing event it stands for, if it stands for one; everything else in the
log is of no interest.

Records may keep arriving after a drain of the log, so the log is drained until nothing comes
any more (`collect`). The events of all batches are then put in the order of their times;
events of one time keep the order of their arrival.
-/

namespace PaintBench

/-- Read a phase: its name, or an object whose only member has that name and no value. -/
def Phase.decode : Json → Option Phase
  | .str s => ofName? s
  | .obj [(s, .null)] => ofName? s
  | _ => none

/-- Write a phase. -/
def Phase.encode (p : Phase) : Json :=
  .str p.name

namespace Trace

/-- An entry of the log. -/
structure LogEntry where
  message : String
deriving DecidableEq, Repr

/-- Read an entry. -/
def LogEntry.decode (j : Json) : Option LogEntry := do
  let r ← Json.Record.of? ["message"] j
  let message ← r.required "message" Json.Decode.text
  some { message }

/-- Write an entry. -/
def LogEntry.encode (e : LogEntry) : Json :=
  .obj [("message", .str e.message)]

/-- A record of the log. -/
structure Message where
  method : String
  params : Json

/-- Read a record. -/
def Message.decode (j : Json) : Option Message := do
  let r ← Json.Record.of? ["method", "params"] j
  let method ← r.required "method" Json.Decode.text
  let params ← r.withDefault "params" some .null
  some { method, params := params.lastWins }

/-- Read a record out of the object that wraps it. -/
def Message.decodeWrapped (j : Json) : Option Message := do
  let r ← Json.Record.ofObject? ["message"] j
  r.required "message" Message.decode

/-- The parameters of a trace record. -/
structure TraceRecord where
  name : String
  ts : Option Float
  dur : Float
  args : Json

/-- Read the parameters of a trace record. -/
def TraceRecord.decode (j : Json) : Option TraceRecord := do
  let r ← Json.Record.of? ["name", "ts", "dur", "args"] j
  let name ← r.required "name" Json.Decode.text
  let ts ← r.optional "ts" Json.Decode.float
  let dur ← r.withDefault "dur" Json.Decode.float 0
  let args ← r.withDefault "args" some .null
  some { name, ts, dur, args }

/-- Bytes in megabytes. -/
def megabytes (bytes : Float) : Float :=
  bytes / 1024 / 1024

/-- The event of a trace record, given its time. -/
def TraceRecord.event? (t : TraceRecord) (ts : Float) : Option (Event Float) :=
  match t.name with
  | "EventDispatch" =>
    if (t.args.at? ["data", "type"]).bind Json.str? = some "click" then some (.click ts t.dur)
    else none
  | "TimeStamp" =>
    ((t.args.at? ["data", "message"]).bind Json.str?).bind fun message =>
      (Phase.ofMarker? message).map (.marker · ts)
  | "navigationStart" => some (.navigationStart ts)
  | "Paint" => some (.paint ts t.dur)
  | "MajorGC" =>
    ((t.args.get? "usedHeapSizeAfter").bind Json.float?).map fun bytes =>
      .gc ts (megabytes bytes)
  | _ => none

/-- Whether a method reports on pages or on the network rather than on timing. -/
def isOtherDomain (method : String) : Bool :=
  "Page".toList.isPrefixOf method.toList || "Network".toList.isPrefixOf method.toList

/-- The event of a record. -/
def Message.event? (m : Message) : Option (Event Float) :=
  if isOtherDomain m.method then none
  else do
    let t ← TraceRecord.decode m.params
    t.event? (← t.ts)

/-- The event of a JSON value of the log. -/
def ofJson? (j : Json) : Option (Event Float) :=
  match Message.decodeWrapped j with
  | some m => m.event?
  | none => (Message.decode j).bind Message.event?

/-- The event of a text of the log. -/
def classify (text : String) : Option (Event Float) :=
  (Json.parse? text).bind (Json.Decode.entire ofJson?)

/-! ## Collecting a trace -/

/-- The events in the order of their times. -/
def chronological (events : List (Event Float)) : List (Event Float) :=
  events.mergeSort fun a b => !decide (b.ts < a.ts)

/-- Drain the log until nothing comes any more, a number of times at most. -/
def drainAll {σ : Type} (session : SessionId) : Nat → Attempt σ (List (Event Float))
  | 0 => ExceptT.mk Run.hang
  | drains + 1 => do
    let batch : List String ← Attempt.call session .drain
    if batch.isEmpty then return []
    else return batch.filterMap classify ++ (← drainAll session drains)

/-- The events of a session since the last drain. -/
def collect {σ : Type} (session : SessionId) : Attempt σ (List (Event Float)) := do
  let drains ← ExceptT.lift Run.patience
  return chronological (← drainAll session drains)

end Trace

end PaintBench
