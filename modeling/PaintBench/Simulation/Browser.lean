import PaintBench.Json.Printer
import PaintBench.Simulation.TableApp

/-!
# Simulated sessions

A simulated session shows a simulated page and writes a performance log with a clock of
its own, in microseconds. What happens to the page may be delayed: such mutations are
pending until the time of the run reaches them, and are carried out before the next call.
-/

namespace PaintBench.Simulation

/-- A record that enters the log together with a marker. -/
inductive Injection where
  | raw (message : String)
  | record (name : String) (offset dur : Float) (args : Json)

/-- How simulated sessions behave. -/
structure Behaviour where
  /-- the page that navigation loads -/
  page : PageSource
  /-- how long the app takes to react to a click, in milliseconds -/
  latency : Nat
  paintsPerClick : Nat
  paintDuration : Float
  /-- the heap without any rows, in megabytes -/
  baseHeap : Float
  skipGc : Bool
  /-- how many records a drain hands out; all when there is no limit -/
  drainLimit : Option Nat
  /-- records that enter the log after the marker of a number -/
  injections : List (Nat × Injection)

/-- A session. -/
structure Browser where
  page : Page
  /-- the clock of the log -/
  clock : Float
  /-- records that were not drained, latest first -/
  log : List String
  marks : Nat
  closed : Bool
  /-- mutations by the time when they are due, in the order in which they were planned -/
  pending : List (Nat × Mutation)

namespace Browser

/-- A session before any navigation. -/
def fresh (page : Page) : Browser :=
  ⟨page, 1000000, [], 0, false, []⟩

/-! ## Mutations -/

/-- Carry out a mutation. Loading a page drops what is pending. -/
def mutate (b : Browser) (m : Mutation) : Browser :=
  let b := { b with page := m.apply b.page }
  match m with
  | .load _ => { b with pending := [] }
  | _ => b

/-- Carry out mutations one after the other, up to the first one that loads a page. -/
def mutateAll (b : Browser) : List (Nat × Mutation) → Browser
  | [] => b
  | (_, .load source) :: _ => b.mutate (.load source)
  | (_, m) :: rest => mutateAll (b.mutate m) rest

/-- Carry out the mutations that are due. -/
def settle (b : Browser) (time : Nat) : Browser :=
  let (due, later) := b.pending.partition (·.1 ≤ time)
  mutateAll { b with pending := later } (due.mergeSort fun a b => a.1 ≤ b.1)

/-- Carry out a mutation now, or plan it for later. -/
def plan (b : Browser) (time delay : Nat) (m : Mutation) : Browser :=
  if delay = 0 then b.mutate m
  else { b with pending := b.pending ++ [(time + delay, m)] }

/-! ## The performance log -/

/-- Let the clock of the log run. -/
def tick (b : Browser) (us : Float) : Browser :=
  { b with clock := b.clock + us }

/-- The text of a trace record. -/
def recordText (name : String) (ts dur : Float) (args : Json) : String :=
  Json.compact (.obj [
    ("method", .str "Tracing.dataCollected"),
    ("params", .obj [
      ("name", .str name), ("ts", .ofFloat ts), ("dur", .ofFloat dur), ("args", args)])])

/-- Write a record to the log. -/
def record (b : Browser) (name : String) (dur : Float) (args : Json) : Browser :=
  { b with log := recordText name b.clock dur args :: b.log }

/-- Write a record that comes together with a marker. -/
def inject (b : Browser) : Injection → Browser
  | .raw message => { b with log := message :: b.log }
  | .record name offset dur args =>
    { b with log := recordText name (b.clock + offset) dur args :: b.log }

/-- The arguments of a record about something. -/
def about (name value : String) : Json :=
  .obj [("data", .obj [(name, .str value)])]

/-- Write the paints after a click. -/
def paint (b : Browser) (dur : Float) : Nat → Browser
  | 0 => b
  | n + 1 => paint ((b.tick 3000).record "Paint" dur (.obj [])) dur n

/-- Write a marker, and the records that come with it. -/
def writeMark (b : Browser) (behaviour : Behaviour) (phase : Phase) : Browser :=
  let b := (b.tick 500).record "TimeStamp" 0 (about "message" phase.marker)
  let b := { b with marks := b.marks + 1 }
  (behaviour.injections.filter (·.1 == b.marks)).foldl (fun b i => b.inject i.2) b

/-- The heap after a garbage collection, in megabytes. -/
def heap (b : Browser) (behaviour : Behaviour) : Float :=
  behaviour.baseHeap + 0.5 * Decimal.ofInt b.page.rows.length

/-- Write a garbage collection. -/
def writeGc (b : Browser) (behaviour : Behaviour) : Browser :=
  if behaviour.skipGc then b
  else (b.tick 500).record "MajorGC" 0
    (.obj [("usedHeapSizeAfter", .ofFloat (b.heap behaviour * 1048576))])

/-! ## Calls -/

/-- Load the page. -/
def navigate (b : Browser) (behaviour : Behaviour) : Browser :=
  ((b.mutate (.load behaviour.page)).tick 1000).record "navigationStart" 0 (.obj [])

/-- Click a node that is alive. -/
def click (b : Browser) (behaviour : Behaviour) (time : Nat) (node : Node) : Browser :=
  let b := (b.tick 1000).record "EventDispatch" 2000 (about "type" "click")
  let b := b.plan time behaviour.latency (.react node)
  (b.paint behaviour.paintDuration behaviour.paintsPerClick).tick 1000

/-- Take records out of the log. -/
def drain (b : Browser) (behaviour : Behaviour) : List String × Browser :=
  let records := b.log.reverse
  let count := behaviour.drainLimit.getD records.length
  (records.take count, { b with log := (records.drop count).reverse })

/-- An attribute of an element. -/
def attributeOf (e : Element) : String → Option String
  | "class" => e.className
  | "id" => e.id
  | _ => none

/-- Do something with a node that has to be alive. -/
def withLive {α : Type} (b : Browser) (node : Node) (act : Element → α × Browser) :
    Except SessionError α × Browser :=
  match b.page.live? node with
  | none => (.error .staleElement, b)
  | some e =>
    let (a, b) := act e
    (.ok a, b)

/-- Answer a call on a session that is open. -/
def answerOpen (b : Browser) (behaviour : Behaviour) (time : Nat) :
    (c : Call) → Except SessionError c.Reply × Browser
  | .navigate _ => (.ok (), b.navigate behaviour)
  | .documentBody => (.ok b.page.body, b)
  | .shadowRoot host => (.ok ((b.page.shadows.find? (·.1 == host)).map (·.2)), b)
  | .query scope selector => b.withLive scope fun _ => (b.page.query scope selector, b)
  | .click node => b.withLive node fun _ => ((), b.click behaviour time node)
  | .text node => b.withLive node fun _ => (b.page.textOf node, b)
  | .attributeOf node name => b.withLive node fun e => (attributeOf e name, b)
  | .mark phase => (.ok (), b.writeMark behaviour phase)
  | .collectGarbage => (.ok (), b.writeGc behaviour)
  | .setThrottling _ => (.ok (), b)
  | .usedHeap => (.ok (42 : Float), b)
  | .drain =>
    let (records, b) := b.drain behaviour
    (.ok records, b)
  | .close => (.ok (), { b with closed := true })

/-- Answer a call. A closed session answers nothing but another close. -/
def answer (b : Browser) (behaviour : Behaviour) (time : Nat) (c : Call) :
    Except SessionError c.Reply × Browser :=
  let b := b.settle time
  match b.closed, c with
  | true, .close => (.ok (), b)
  | true, _ => (.error .closed, b)
  | false, c => b.answerOpen behaviour time c

end Browser

end PaintBench.Simulation
