import PaintBench.Proofs.Json.Scalar
import PaintBench.Proofs.Page.TableApp

/-!
# A table app without a page around it

The state of this outside is the table itself. Its nodes are numbered by the places that they are
at, so nothing but the table changes when something is clicked. It is a table app for every page
and every number of rows (`TableApp.plain`).
-/

namespace PaintBench

theorem Segment.selector_injective (tag : String) :
    Function.Injective fun n => Segment.selector ⟨tag, n⟩ := by
  intro m n h
  have hdigits : Nat.toDigits 10 m = Nat.toDigits 10 n := by
    simpa [Segment.selector, String.toList_append, Nat.toString_eq_ofList_toDigits]
      using congrArg String.toList h
  exact Json.digitsOf_injective hdigits

namespace Table

/-! ## Nodes -/

/-- The node at a place. Each row has seven of them. -/
def Place.node : Place → Node
  | .root => 0
  | .rows => 1
  | .row n => 7 * n + 3
  | .idCell n => 7 * n + 4
  | .labelCell n => 7 * n + 5
  | .label n => 7 * n + 6
  | .removeCell n => 7 * n + 7
  | .removeLink n => 7 * n + 8
  | .removeIcon n => 7 * n + 9

/-- The node of the button that renders rows. -/
def runButton : Node := 2

/-- The place of a node. -/
def Place.ofNode : Node → Option Place
  | 0 => some .root
  | 1 => some .rows
  | 2 => none
  | k + 3 =>
    match k % 7 with
    | 0 => some (.row (k / 7))
    | 1 => some (.idCell (k / 7))
    | 2 => some (.labelCell (k / 7))
    | 3 => some (.label (k / 7))
    | 4 => some (.removeCell (k / 7))
    | 5 => some (.removeLink (k / 7))
    | _ => some (.removeIcon (k / 7))

@[simp]
theorem Place.ofNode_node (place : Place) : Place.ofNode place.node = some place := by
  cases place <;> simp [ofNode, node, Nat.mul_add_div]

/-! ## Calls -/

/-- The places right below a place, with the segments that name them. -/
def children (t : Table) : Place → List (Segment × Place)
  | .root => [(⟨"tbody", 1⟩, .rows)]
  | .rows => (List.range' 1 t.ids.length).map fun n => (⟨"tr", n⟩, .row n)
  | .row n => [(⟨"td", 1⟩, .idCell n), (⟨"td", 2⟩, .labelCell n), (⟨"td", 3⟩, .removeCell n)]
  | .labelCell n => [(⟨"a", 1⟩, .label n)]
  | .removeCell n => [(⟨"a", 1⟩, .removeLink n)]
  | .removeLink n => [(⟨"span", 1⟩, .removeIcon n)]
  | .idCell _ | .label _ | .removeIcon _ => []

/-- The child that a selector finds. -/
def childAt (t : Table) (place : Place) (selector : String) : Option Place :=
  ((t.children place).find? fun child => child.1.selector == selector).map Prod.snd

/-- The node that a selector finds. -/
def nodeBelow (t : Table) (scope : Node) (selector : String) : Option Node :=
  if scope = Place.root.node ∧ selector = Selector.ofId "run" then some runButton
  else (Place.ofNode scope).bind fun place => (t.childAt place selector).map Place.node

/-- The text of a node. -/
def textOf (t : Table) (node : Node) : String :=
  match Place.ofNode node with
  | some (.idCell n) => ((t.idAt n).map toString).getD ""
  | _ => ""

/-- The class of a node. -/
def classOf (t : Table) (node : Node) : Option String :=
  match Place.ofNode node with
  | some (.row n) => if t.isSelected n then some "danger" else none
  | _ => none

/-- The table after a click on a node. -/
def click (t : Table) (count : Nat) (node : Node) : Table :=
  if node = runButton then t.render count
  else
    match Place.ofNode node with
    | some (.label n) => t.select n
    | some (.removeIcon n) => t.remove n
    | _ => t

/-- What a call is answered with, and the table after it. -/
def reply (count : Nat) (t : Table) : (c : Call) → c.Reply × Table
  | .documentBody | .shadowRoot _ => (some Place.root.node, t)
  | .query scope selector => (t.nodeBelow scope selector, t)
  | .click node => ((), t.click count node)
  | .text node => (t.textOf node, t)
  | .attributeOf node _ => (t.classOf node, t)
  | .navigate _ | .mark _ | .collectGarbage | .setThrottling _ | .close => ((), t)
  | .usedHeap => ((0 : Float), t)
  | .drain => (([] : List String), t)

/-- An outside that consists of a table and a button that renders so many rows. -/
def world (count : Nat) : World Table where
  receive _ t := (.after 0, t)
  answer
    | .call _ c, _, t => (.ok (t.reply count c).1, (t.reply count c).2)
    | .openSession _, _, t => (.ok (), t)
    | .audit .., _, t => (.error (.audit "no report"), t)

theorem replies (count : Nat) (session : SessionId) (c : Call) (t : Table) :
    (world count).Replies session c t (t.reply count c).1 (t.reply count c).2 :=
  ⟨rfl, fun _ => rfl⟩

/-! ## Queries -/

theorem has_row_iff {t : Table} {n : Nat} : t.has (.row n) ↔ n ∈ List.range' 1 t.ids.length := by
  rw [List.mem_range'_1]
  cases n with
  | zero => exact iff_of_false Bool.false_ne_true nofun
  | succ n =>
    have hrow : t.has (.row (n + 1)) ↔ n < t.ids.length := by simp [has, idAt]
    rw [hrow]
    omega

theorem childAt_row (t : Table) (n : Nat) : t.childAt .rows (Segment.selector ⟨"tr", n⟩) =
    if t.has (.row n) then some (.row n) else none := by
  have hsame (m : Nat) :
      (Segment.selector ⟨"tr", m⟩ == Segment.selector ⟨"tr", n⟩) = (m == n) := by
    rw [Bool.eq_iff_iff, beq_iff_eq, beq_iff_eq]
    exact (Segment.selector_injective "tr").eq_iff
  rw [childAt, children, List.find?_map, Option.map_map]
  simp only [Function.comp_def, hsame]
  cases hfind : (List.range' 1 t.ids.length).find? (· == n) with
  | none =>
    have hmissing : ¬t.has (.row n) := fun hhas =>
      absurd (beq_self_eq_true n) (List.find?_eq_none.mp hfind n (has_row_iff.mp hhas))
    rw [if_neg hmissing]
    rfl
  | some m =>
    have hfound := List.find?_some hfind
    obtain rfl : m = n := by simpa using hfound
    rw [if_pos (has_row_iff.mpr (List.mem_of_find?_eq_some hfind))]
    rfl

variable {t : Table} {place child : Place} {segment : Segment}

theorem childAt_selector (hplace : t.has place) (h : place.Child segment child) :
    t.childAt place segment.selector = if t.has child then some child else none := by
  by_cases hchild : t.has child
  · rw [if_pos hchild]
    cases h with
    | row n => rw [childAt_row, if_pos hchild]
    | rows | idCell | labelCell | label | removeCell | removeLink | removeIcon =>
      simp +decide [childAt, children]
  · rw [if_neg hchild]
    cases h with
    | row n => rw [childAt_row, if_neg hchild]
    | rows | idCell | labelCell | label | removeCell | removeLink | removeIcon =>
      exact absurd hplace hchild

theorem nodeBelow_selector (hplace : t.has place) (h : place.Child segment child) :
    t.nodeBelow place.node segment.selector = if t.has child then some child.node else none := by
  have hother : ¬(place.node = Place.root.node ∧ segment.selector = Selector.ofId "run") := by
    cases h with
    | rows => exact fun h => absurd h.2 (by decide)
    | row n | idCell n | labelCell n | label n | removeCell n | removeLink n | removeIcon n =>
      exact fun h => by cases h.1
  rw [nodeBelow, if_neg hother, Place.ofNode_node, Option.bind_some, childAt_selector hplace h]
  split <;> rfl

end Table

/-- The outside that consists of a table is a table app, whatever the page is. -/
def TableApp.plain (d : Dom) (count : Nat) : TableApp Table d where
  world := Table.world count
  count
  Shows o t := o = t
  nodeAt _ := Table.Place.node
  runButton _ := Table.runButton
  root {o t} _ := by
    unfold Dom.RootAt
    cases d.shadowHost
    all_goals exact Table.replies count d.session _ o
  query {o t place child segment} h hplace hchild := by
    subst h
    rw [← Table.nodeBelow_selector hplace hchild]
    exact Table.replies count d.session (.query place.node segment.selector) o
  queryRun {o t} _ := Table.replies count d.session _ o
  idText {o t row id} h hid := by
    subst h
    have htext : o.textOf (Table.Place.idCell row).node = toString id := by
      rw [Table.textOf, Table.Place.ofNode_node]
      simp [hid]
    rw [← htext]
    exact Table.replies count d.session (.text (Table.Place.idCell row).node) o
  rowClass {o t row id} h hid := by
    subst h
    refine ⟨_, Table.replies count d.session (.attributeOf (Table.Place.row row).node "class") o,
      ?_⟩
    change (o.classOf (Table.Place.row row).node).any (Dom.contains · "danger") = _
    rw [Table.classOf, Table.Place.ofNode_node]
    simp only [Table.isSelected, hid, Option.any_some]
    split
    · next hselected => rw [hselected]; decide
    · next hselected => rw [Bool.eq_false_iff.mpr hselected]; rfl
  clickRun {o t} h := ⟨_, Table.replies count d.session (.click Table.runButton) o, h ▸ rfl⟩
  clickLabel {o t row} h _ := by
    subst h
    refine ⟨_, Table.replies count d.session (.click (Table.Place.label row).node) o, ?_⟩
    change o.click count (Table.Place.label row).node = _
    rw [Table.click, if_neg nofun, Table.Place.ofNode_node]
  clickRemove {o t row} h _ := by
    subst h
    refine ⟨_, Table.replies count d.session (.click (Table.Place.removeIcon row).node) o, ?_⟩
    change o.click count (Table.Place.removeIcon row).node = _
    rw [Table.click, if_neg nofun, Table.Place.ofNode_node]

end PaintBench
