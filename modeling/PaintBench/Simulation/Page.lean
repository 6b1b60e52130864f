import PaintBench.Page.Selector
import PaintBench.Session.World

/-!
# Simulated pages

A simulated page keeps every element it ever had, numbered in the order of creation. An
element that was removed is dead, with everything below it, and stays dead. Queries look
at the elements below a node in document order.

Walks through a page are bounded by a depth, for which the number of elements is enough.
-/

namespace PaintBench.Simulation

/-- A piece of a page before it is built. -/
inductive Markup where
  | element (tag : String) (id : Option String) (text : String) (className : Option String)
      (children : List Markup)

/-- An element of a page. -/
structure Element where
  tag : String
  id : Option String
  /-- its own text, which precedes that of its children -/
  text : String
  className : Option String
  parent : Option Node
  children : List Node
  alive : Bool

/-- A page. -/
structure Page where
  elements : Array Element
  body : Option Node
  /-- shadow roots by the selector of their host -/
  shadows : List (String × Node)
  /-- the id of the next row of the table -/
  nextRow : Nat

namespace Page

/-- A page without a body. -/
def blank : Page := ⟨#[], none, [], 1⟩

/-- The element of a node, dead or alive. -/
def element? (p : Page) (node : Node) : Option Element :=
  p.elements[node]?

/-- The element of a node that is alive. -/
def live? (p : Page) (node : Node) : Option Element :=
  (p.element? node).filter Element.alive

/-- The children of a node. -/
def childrenOf (p : Page) (node : Node) : List Node :=
  ((p.element? node).map Element.children).getD []

/-- Change an element. -/
def modify (p : Page) (node : Node) (change : Element → Element) : Page :=
  { p with elements := p.elements.modify node change }

/-- Put children after the ones of a node. -/
def adopt (p : Page) (node : Node) (children : List Node) : Page :=
  p.modify node fun e => { e with children := e.children ++ children }

/-- The depth that bounds a walk. -/
def depth (p : Page) : Nat :=
  p.elements.size + 1

mutual

/-- Create the elements of a piece, a parent before its children. -/
def build (parent : Option Node) : Markup → Page → Node × Page
  | .element tag id text className children, p =>
    let node := p.elements.size
    let p := { p with
      elements := p.elements.push ⟨tag, id, text, className, parent, [], true⟩ }
    let (nodes, p) := buildAll node children p
    (node, p.adopt node nodes)

/-- Create the elements of the pieces below a node. -/
def buildAll (parent : Node) : List Markup → Page → List Node × Page
  | [], p => ([], p)
  | piece :: rest, p =>
    let (node, p) := build (some parent) piece p
    let (nodes, p) := buildAll parent rest p
    (node :: nodes, p)

end

/-- Create the elements of a piece below a node. -/
def append (p : Page) (parent : Node) (piece : Markup) : Page :=
  let (node, p) := build (some parent) piece p
  p.adopt parent [node]

/-- Mark elements as dead, with everything below them. -/
def markDead : Nat → List Node → Page → Page
  | 0, _, p => p
  | _, [], p => p
  | depth + 1, node :: rest, p =>
    let children := p.childrenOf node
    let p := p.modify node fun e => { e with alive := false }
    markDead (depth + 1) rest (markDead depth children p)
termination_by depth nodes => (depth, nodes.length)

/-- Remove an element. -/
def remove (p : Page) (node : Node) : Page :=
  match p.element? node with
  | none => p
  | some e =>
    let p := match e.parent with
      | some parent => p.modify parent fun e =>
        { e with children := e.children.filter (· != node) }
      | none => p
    markDead p.depth [node] p

/-- Remove the children of a node. -/
def removeChildren (p : Page) (node : Node) : Page :=
  let children := p.childrenOf node
  let p := p.modify node fun e => { e with children := [] }
  markDead p.depth children p

/-- The texts of some nodes, each followed by those below it. -/
def texts (p : Page) : Nat → List Node → List String
  | 0, _ => []
  | _, [] => []
  | depth + 1, node :: rest =>
    match p.element? node with
    | none => texts p (depth + 1) rest
    | some e => e.text :: texts p depth e.children ++ texts p (depth + 1) rest
termination_by depth nodes => (depth, nodes.length)

/-- The text of a node with everything below it. -/
def textOf (p : Page) (node : Node) : String :=
  String.join (p.texts p.depth [node])

/-- Whether a selector matches an element, given its place among its siblings. -/
def accepts (selector : Selector) (index : Nat) (e : Element) : Bool :=
  match selector with
  | .withId id => e.id == some id
  | .nthChild tag n => e.tag == tag && index == n

/-- The first of some siblings, or of what is below them, that a selector matches. The
index is the place of the first sibling. -/
def search (p : Page) (selector : Selector) : Nat → List Node → Nat → Option Node
  | 0, _, _ => none
  | _, [], _ => none
  | depth + 1, node :: rest, index =>
    match p.element? node with
    | none => search p selector (depth + 1) rest (index + 1)
    | some e =>
      if accepts selector index e then some node
      else
        match search p selector depth e.children 1 with
        | some found => some found
        | none => search p selector (depth + 1) rest (index + 1)
termination_by depth nodes => (depth, nodes.length)

/-- The first node below a node that a selector matches. -/
def query (p : Page) (scope : Node) (selector : String) : Option Node :=
  (Selector.read? selector).bind fun selector =>
    p.search selector p.depth (p.childrenOf scope) 1

/-- The first element with a tag, in the order of creation. -/
def firstWithTag (p : Page) (tag : String) : Option Node :=
  p.elements.findIdx? (·.tag == tag)

/-- The parent of a node. -/
def parentOf (p : Page) (node : Node) : Option Node :=
  (p.element? node).bind Element.parent

end Page

end PaintBench.Simulation
