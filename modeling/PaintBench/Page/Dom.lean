import PaintBench.Page.Selector
import PaintBench.Session.Poll

/-!
# Access to the page

`Dom` finds elements of the page of one session, waits for them, reads and clicks them.
A path starts at the root: the body, or the shadow root of the host element. It is
followed part by part, since no query sees into a shadow root.

The page changes while it is looked at. A lookup that fails on the way finds nothing, a
wait polls until its condition holds, and a click or a reading is tried several times.
-/

namespace PaintBench

/-- The page of a session, as an implementation lays it out. -/
structure Dom where
  session : SessionId
  /-- the element with the shadow root that holds the app, if there is one -/
  shadowHost : Option String
  /-- the limit of waits without a limit of their own -/
  timeout : Duration
  pollInterval : Duration

/-- What can be clicked. -/
inductive Target where
  | withId (id : String)
  | atPath (path : ElementPath)

/-- The name of a target in messages. -/
def Target.name : Target → String
  | withId id => "#" ++ id
  | atPath path => path.text

namespace Dom

variable {σ α : Type}

/-- The page of an implementation in a session. -/
def ofSession (session : SessionId) (i : Implementation) (o : RunOptions) : Dom where
  session
  shadowHost := if i.useShadowRoot then some i.shadowRootHost else none
  timeout := o.timeout
  pollInterval := o.pollInterval

/-- The name of the root in messages. -/
def rootName (d : Dom) : String :=
  match d.shadowHost with
  | some host => "shadow root of " ++ host
  | none => "document body"

/-- A node that has to be there. -/
def present (what : String) : Option Node → Attempt σ Node
  | some node => return node
  | none => .fail (.notFound what)

/-- The node where paths start. -/
def root (d : Dom) : Attempt σ Node := do
  let node : Option Node ←
    match d.shadowHost with
    | some host => Attempt.call d.session (.shadowRoot host)
    | none => Attempt.call d.session .documentBody
  present d.rootName node

/-- Follow the parts of a path from a node. -/
def locate (d : Dom) (node : Node) : List Segment → Run σ (Option Node)
  | [] => return some node
  | segment :: rest => do
    let answer : Except SessionError (Option Node) ←
      Run.ask (.call d.session (.query node segment.selector))
    match answer with
    | .ok (some next) => d.locate next rest
    | _ => return none

/-- The node at a path. -/
def find (d : Dom) (path : ElementPath) : Attempt σ (Option Node) := do
  let root ← d.root
  ExceptT.lift (d.locate root path.segments)

/-- The node with an id. -/
def findById (d : Dom) (id : String) : Attempt σ (Option Node) := do
  let root ← d.root
  Attempt.call d.session (.query root (Selector.ofId id))

/-- The text of the node at a path. -/
def textAt (d : Dom) (path : ElementPath) : Attempt σ (Option String) := do
  match ← d.find path with
  | none => return none
  | some node =>
    let text : String ← Attempt.call d.session (.text node)
    return some text

/-! ## Waiting -/

/-- Whether a text contains another one. -/
def contains (content text : String) : Bool :=
  Text.occursIn text.toList content.toList

/-- Poll a condition on the page. -/
def waitUntil (d : Dom) (description : String) (limit : Duration) (condition : Attempt σ Bool) :
    Attempt σ Unit :=
  Attempt.waitUntil d.pollInterval description limit condition

/-- Wait until there is a node at a path. -/
def waitForPath (d : Dom) (path : ElementPath) (limit : Duration) : Attempt σ Unit :=
  d.waitUntil ("element " ++ path.text) limit do
    return (← d.find path).isSome

/-- Wait until there is no node at a path. -/
def waitForPathAbsent (d : Dom) (path : ElementPath) (limit : Duration) : Attempt σ Unit :=
  d.waitUntil ("no element " ++ path.text) limit do
    return (← d.find path).isNone

/-- Wait until there is a node with an id. -/
def waitForId (d : Dom) (id : String) (limit : Duration) : Attempt σ Unit :=
  d.waitUntil ("element #" ++ id) limit do
    return (← d.findById id).isSome

/-- Wait until the node at a path has a text that passes a test. An empty text passes
none. -/
def waitForTextWith (d : Dom) (description : String) (path : ElementPath) (limit : Duration)
    (passes : String → Bool) : Attempt σ Unit :=
  d.waitUntil description limit do
    match ← d.textAt path with
    | none => return false
    | some content => return !content.isEmpty && passes content

/-- Wait until the node at a path shows a text. -/
def waitForText (d : Dom) (path : ElementPath) (text : String) (limit : Duration) :
    Attempt σ Unit :=
  d.waitForTextWith ("text '" ++ text ++ "' in " ++ path.text) path limit
    (contains · text)

/-- Wait until the node at a path shows something, but not the given text. -/
def waitForTextAbsent (d : Dom) (path : ElementPath) (text : String) (limit : Duration) :
    Attempt σ Unit :=
  d.waitForTextWith ("text '" ++ text ++ "' gone from " ++ path.text) path limit
    (!contains · text)

/-- Wait until the node at a path has a class that contains a name. -/
def waitForClass (d : Dom) (path : ElementPath) (name : String) (limit : Duration) :
    Attempt σ Unit :=
  d.waitUntil ("class '" ++ name ++ "' on " ++ path.text) limit do
    match ← d.find path with
    | none => return false
    | some node =>
      let classes : Option String ← Attempt.call d.session (.attributeOf node "class")
      return classes.any (contains · name)

/-! ## Interactions -/

/-- How often a click or a reading is tried. -/
def interactionAttempts : Nat := 5

/-- Try again after a failure, a number of times at most; the last failure counts. -/
def retry (act : Attempt σ α) : Nat → Attempt σ α
  | 0 => act
  | retries + 1 => ExceptT.mk do
    match ← act.run with
    | .ok a => return .ok a
    | .error _ => (retry act retries).run

/-- The node of a target. -/
def findTarget (d : Dom) : Target → Attempt σ (Option Node)
  | .withId id => d.findById id
  | .atPath path => d.find path

/-- Find a target and click it, once. -/
def clickOnce (d : Dom) (target : Target) : Attempt σ Unit := do
  let node ← present target.name (← d.findTarget target)
  Attempt.call d.session (.click node)

/-- Click a target. -/
def click (d : Dom) (target : Target) : Attempt σ Unit :=
  retry (d.clickOnce target) (interactionAttempts - 1)

/-- Find a node and read its text, once. -/
def readTextOnce (d : Dom) (path : ElementPath) : Attempt σ String := do
  match ← d.textAt path with
  | some text => return text
  | none => .fail (.notFound path.text)

/-- Read the text of the node at a path. -/
def readText (d : Dom) (path : ElementPath) : Attempt σ String :=
  retry (d.readTextOnce path) (interactionAttempts - 1)

end Dom

end PaintBench
