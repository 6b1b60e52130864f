import PaintBench.Json.Decode
import PaintBench.Simulation.Stage
import PaintBench.Text.Search

/-!
# Scenarios as JSON

Pages, mutations and faults can be written down as JSON. Members that are left out have
the usual value: a page is the table app, a click paints once, a fault hits the first
call.
-/

namespace PaintBench

/-- Read a session failure: its name, with the detail after a colon. -/
def SessionError.ofText (s : String) : Option SessionError :=
  match Text.splitOnce ':' s.toList with
  | none =>
    match s with
    | "stale" => some .staleElement
    | "closed" => some .closed
    | _ => none
  | some (name, detail) =>
    let detail := String.ofList detail
    match String.ofList name with
    | "launch" => some (.launch detail)
    | "protocol" => some (.protocol detail)
    | "script" => some (.script detail)
    | _ => none

namespace Simulation

/-- A member of an object, where null is as good as nothing. -/
def member {α : Type} (name : String) (item : Json → Option α) (j : Json) : Option α :=
  (j.get? name).bind item

/-- A whole number that is not negative. -/
def natural : Json → Option Nat
  | .num (.whole n) => if 0 ≤ n then some n.toNat else none
  | _ => none

mutual

/-- Read a piece of a page. -/
def Markup.decode : Json → Markup
  | .obj members =>
    let text (name : String) := (Json.lastMember name members).bind Json.str?
    .element ((text "tag").getD "div") (text "id") ((text "text").getD "") (text "class")
      (Markup.decodeMembers members)
  | _ => .element "div" none "" none []

/-- Read the children among the members of a piece. -/
def Markup.decodeMembers : List (String × Json) → List Markup
  | [] => []
  | ("children", .arr items) :: _ => Markup.decodeItems items
  | _ :: rest => Markup.decodeMembers rest

/-- Read pieces. -/
def Markup.decodeItems : List Json → List Markup
  | [] => []
  | j :: rest => Markup.decode j :: Markup.decodeItems rest

end

/-- Read a shadow root and its host. -/
def decodeShadow (j : Json) : Option (String × Markup) := do
  let host ← member "host" Json.str? j
  let piece ← j.get? "root"
  some (host, Markup.decode piece)

/-- The items of a list. -/
def items : Json → List Json
  | .arr items => items
  | _ => []

/-- Read what a page is loaded from. -/
def PageSource.decode : Json → PageSource
  | .obj members =>
    let body := (Json.lastMember "body" members).bind fun
      | .null => none
      | j => some (Markup.decode j)
    let shadows := ((Json.lastMember "shadows" members).map items).getD []
    .custom body (shadows.filterMap decodeShadow)
  | _ => .tableApp

/-- Read a mutation from an object with one member. -/
def Mutation.decode : Json → Option Mutation
  | .obj [("add_rows", j)] => (natural j).map .addRows
  | .obj [("clear_rows", _)] => some .clearRows
  | .obj [("kill", j)] => (natural j).map .kill
  | .obj [("set_text", .arr [node, .str text])] => (natural node).map (.setText · text)
  | .obj [("set_class", .arr [node, name])] => (natural node).map (.setClass · name.str?)
  | .obj [("append", .arr [parent, piece])] =>
    (natural parent).map (.append · (Markup.decode piece))
  | .obj [("app_click", j)] => (natural j).map .react
  | .obj [("load", j)] => some (.load (.decode j))
  | _ => none

/-- Read a fault. -/
def Fault.decode (j : Json) : Option Fault := do
  let call ← member "call" Json.str? j
  some {
    call
    first := (member "nth" natural j).getD 1
    count := (member "count" natural j).getD 1
    delay := (member "delay_ms" natural j).getD 0
    error := (member "error" Json.str? j).bind SessionError.ofText
    crash := member "panic" Json.str? j }

/-- Read a record that comes together with a marker. -/
def Injection.decode (j : Json) : Nat × Injection :=
  let number (name : String) := (member name Json.float? j).getD 0
  ((member "after_mark" natural j).getD 0,
    match member "raw" Json.str? j with
    | some message => .raw message
    | none =>
      .record ((member "name" Json.str? j).getD "") (number "dt") (number "dur")
        ((j.get? "args").getD .null))

/-- Read how sessions behave. -/
def Behaviour.decode (j : Json) : Behaviour where
  page := ((j.get? "page").map PageSource.decode).getD .tableApp
  latency := (member "latency_ms" natural j).getD 0
  paintsPerClick := (member "paints_per_click" natural j).getD 1
  paintDuration := (member "paint_dur" Json.float? j).getD 1000
  baseHeap := (member "base_heap_mb" Json.float? j).getD 2
  skipGc := (member "skip_gc" Json.Decode.truth j).getD false
  drainLimit := member "drain_max" natural j
  injections := ((j.get? "inject").map items |>.getD []).map Injection.decode

/-- Read the answer of an audit. -/
def decodeAudit (j : Json) : Except RunError Json :=
  match member "fail" Json.str? j with
  | some text => .error (.audit text)
  | none => .ok j.lastWins

/-- The stage of a scenario, before any session is opened. -/
def Stage.decode (script : Json) (audits : List Json) : Stage where
  behaviour := .decode script
  faults := ((script.get? "faults").map items |>.getD []).filterMap Fault.decode
  counts := []
  browsers := #[]
  audits := audits.map decodeAudit
  audited := []

end Simulation

end PaintBench
