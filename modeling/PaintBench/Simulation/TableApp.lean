import PaintBench.Simulation.Page

/-!
# The table app

The app that benchmarks drive has six buttons and a table. A row has an id, a label that
selects the row when it is clicked, and a cross that removes it. The reactions look only
at the page, so that a page with some of the elements is an app as well.
-/

namespace PaintBench.Simulation

/-- An element without id and class. -/
def Markup.plain (tag text : String) (children : List Markup) : Markup :=
  .element tag none text none children

/-- A button whose id is its text. -/
def Markup.button (id : String) : Markup :=
  .element "button" (some id) id none []

/-- The body of the app, with an empty table. -/
def tableAppBody : Markup :=
  .plain "body" ""
    (["run", "runlots", "add", "update", "clear", "swaprows"].map Markup.button ++
      [.plain "table" "" [.plain "tbody" "" []]])

/-- A row of the table. -/
def tableRow (id : Nat) : Markup :=
  .plain "tr" "" [
    .plain "td" (toString id) [],
    .plain "td" "" [.plain "a" ("row " ++ toString id) []],
    .plain "td" "" [.plain "a" "" [.plain "span" "x" []]]]

/-- What a page is loaded from. -/
inductive PageSource where
  | tableApp
  | custom (body : Option Markup) (shadows : List (String × Markup))

namespace Page

/-- Build the shadow roots of a page. -/
def buildShadows : List (String × Markup) → Page → Page
  | [], p => p
  | (host, piece) :: rest, p =>
    let (node, p) := build none piece p
    buildShadows rest { p with shadows := p.shadows ++ [(host, node)] }

/-- Load a page. -/
def load : PageSource → Page
  | .tableApp =>
    let (body, p) := build none tableAppBody blank
    { p with body := some body }
  | .custom none shadows => buildShadows shadows blank
  | .custom (some piece) shadows =>
    let (body, p) := build none piece blank
    buildShadows shadows { p with body := some body }

/-- The element that holds the rows. -/
def container? (p : Page) : Option Node :=
  p.firstWithTag "tbody"

/-- The rows of the table. -/
def rows (p : Page) : List Node :=
  match p.container? with
  | some container => p.childrenOf container
  | none => []

/-- Put rows with the next ids at the end of the table. -/
def addRows (p : Page) (count : Nat) : Page :=
  match p.container? with
  | none => p
  | some container =>
    let pieces := (List.range' p.nextRow count).map tableRow
    let (nodes, p) := buildAll container pieces { p with nextRow := p.nextRow + count }
    p.adopt container nodes

/-- Empty the table. -/
def clearRows (p : Page) : Page :=
  match p.container? with
  | none => p
  | some container => p.removeChildren container

/-- The label of a row. -/
def labelOf (p : Page) (row : Node) : Option Node := do
  let cell ← (p.childrenOf row)[1]?
  (p.childrenOf cell)[0]?

/-- The elements at places 0, 10, 20 and so on of a list. -/
def everyTenth : List Node → Nat → List Node
  | [], _ => []
  | node :: rest, 0 => node :: everyTenth rest 9
  | _ :: rest, n + 1 => everyTenth rest n

/-- Mark the label of every tenth row. -/
def updateLabels (p : Page) : Page :=
  ((everyTenth p.rows 0).filterMap p.labelOf).foldl
    (fun p label => p.modify label fun e => { e with text := e.text ++ " !!!" }) p

/-- Swap the second row and the last but one of a thousand. -/
def swapRows (p : Page) : Page :=
  match p.container?, p.rows[1]?, p.rows[998]? with
  | some container, some a, some b =>
    p.modify container fun e => { e with children := (e.children.set 1 b).set 998 a }
  | _, _, _ => p

/-- Select a row, and no other. -/
def selectRow (p : Page) (row : Node) : Page :=
  p.rows.foldl
    (fun p other => p.modify other fun e =>
      { e with className := if other = row then some "danger" else none }) p

/-- The row of a node and the place of the cell that the node is in. A cell that was
removed has no place. -/
def cellOf (p : Page) (container : Node) : Nat → Node → Option (Node × Nat)
  | 0, _ => none
  | depth + 1, node => do
    let parent ← p.parentOf node
    let e ← p.element? parent
    if e.parent = some container ∧ e.tag = "tr" then
      return (parent, ← e.children.idxOf? node)
    else cellOf p container depth parent

/-- The reaction to a click inside the table. -/
def clickCell (p : Page) (node : Node) : Page :=
  match p.container?.bind fun container => p.cellOf container p.depth node with
  | some (row, 1) => p.selectRow row
  | some (row, 2) => p.remove row
  | _ => p

/-- The reaction to a click on an element with an id. -/
def clickButton (p : Page) : String → Page
  | "run" => p.clearRows.addRows 1000
  | "runlots" => p.clearRows.addRows 10000
  | "add" => p.addRows 1000
  | "one" => p.addRows 1
  | "clear" => p.clearRows
  | "update" => p.updateLabels
  | "swaprows" => p.swapRows
  | _ => p

/-- The reaction of the app to a click. -/
def react (p : Page) (node : Node) : Page :=
  match p.element? node with
  | none => p
  | some e =>
    match e.id with
    | some id => p.clickButton id
    | none => p.clickCell node

end Page

/-- Something that happens to a page. -/
inductive Mutation where
  | addRows (count : Nat)
  | clearRows
  | kill (node : Node)
  | setText (node : Node) (text : String)
  | setClass (node : Node) (className : Option String)
  | append (parent : Node) (piece : Markup)
  /-- the app reacts to a click -/
  | react (node : Node)
  | load (source : PageSource)

/-- The page after something happened to it. -/
def Mutation.apply : Mutation → Page → Page
  | addRows count, p => p.addRows count
  | clearRows, p => p.clearRows
  | kill node, p => p.remove node
  | setText node text, p => p.modify node fun e => { e with text }
  | setClass node className, p => p.modify node fun e => { e with className }
  | append parent piece, p => p.append parent piece
  | react node, p => p.react node
  | load source, _ => .load source

end PaintBench.Simulation
