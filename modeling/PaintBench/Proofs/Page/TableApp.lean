import PaintBench.Proofs.Session.AtOnce

/-!
# The table app

The suite is made for an app whose `run` button replaces the rows of a table by new ones, whose
labels select rows and whose remove icons delete them. The new rows take their ids from a counter
that never goes back. `Table` is what such an app shows, and `Table.Does` says what a step of a
hook does to it.

A `TableApp` is an outside that behaves like that app, as far as calls on its page can tell. Steps
go through there as they do with a table (`TableApp.execute`, `TableApp.runHook`), and a wait finds
the text of an id cell if the id that the table has there contains it (`TableApp.showsText`).
-/

namespace PaintBench

/-! ## Tables -/

/-- What the app shows: the ids of the rows, the id of the next row and that of the selected
row. -/
structure Table where
  ids : List Nat
  nextId : Nat
  selected : Option Nat

namespace Table

/-- The table when the app has been loaded. -/
def fresh : Table := ⟨[], 1, none⟩

/-- The id of a row. Rows are numbered from 1 on. -/
def idAt (t : Table) : Nat → Option Nat
  | 0 => none
  | n + 1 => t.ids[n]?

/-- Replace all rows by a number of new ones. -/
def render (t : Table) (count : Nat) : Table :=
  ⟨List.range' t.nextId count, t.nextId + count, none⟩

/-- Select a row. -/
def select (t : Table) (row : Nat) : Table :=
  { t with selected := t.idAt row }

/-- Delete a row. -/
def remove (t : Table) (row : Nat) : Table :=
  { t with ids := t.ids.eraseIdx (row - 1) }

theorem idAt_render (t : Table) (count row : Nat) : (t.render count).idAt row =
    if 1 ≤ row ∧ row ≤ count then some (t.nextId + (row - 1)) else none := by
  cases row with
  | zero => rfl
  | succ n =>
    rw [idAt, render]
    split
    · next h => simp [List.getElem?_range' (Nat.lt_of_succ_le h.2)]
    · next h => simpa [Nat.lt_succ_iff] using h

/-- The rows below a deleted one move up. -/
theorem idAt_remove (t : Table) {row : Nat} (hrow : row ≠ 0) (n : Nat) : (t.remove row).idAt n =
    if n < row then t.idAt n else t.idAt (n + 1) := by
  cases n with
  | zero => rw [if_pos (Nat.pos_of_ne_zero hrow)]; rfl
  | succ n =>
    have hiff : n < row - 1 ↔ n + 1 < row := by omega
    rw [idAt, remove, List.getElem?_eraseIdx]
    simp only [hiff, idAt]

/-- Whether the id cell of a row shows a text. -/
def showsId (t : Table) (row : Nat) (text : String) : Bool :=
  (t.idAt row).any fun id => Dom.contains (toString id) text

/-- Whether a row is the selected one. -/
def isSelected (t : Table) (row : Nat) : Bool :=
  (t.idAt row).any fun id => t.selected == some id

end Table

/-! ## Places -/

/-- Where something of the app is on its page. -/
inductive Table.Place where
  | root
  | rows
  | row (n : Nat)
  | idCell (n : Nat)
  | labelCell (n : Nat)
  | label (n : Nat)
  | removeCell (n : Nat)
  | removeLink (n : Nat)
  | removeIcon (n : Nat)

/-- The place below another one that a segment of a path names. -/
inductive Table.Place.Child : Table.Place → Segment → Table.Place → Prop
  | rows : Child .root ⟨"tbody", 1⟩ .rows
  | row (n : Nat) : Child .rows ⟨"tr", n⟩ (.row n)
  | idCell (n : Nat) : Child (.row n) ⟨"td", 1⟩ (.idCell n)
  | labelCell (n : Nat) : Child (.row n) ⟨"td", 2⟩ (.labelCell n)
  | label (n : Nat) : Child (.labelCell n) ⟨"a", 1⟩ (.label n)
  | removeCell (n : Nat) : Child (.row n) ⟨"td", 3⟩ (.removeCell n)
  | removeLink (n : Nat) : Child (.removeCell n) ⟨"a", 1⟩ (.removeLink n)
  | removeIcon (n : Nat) : Child (.removeLink n) ⟨"span", 1⟩ (.removeIcon n)

/-- Some segments lead from one place to another. -/
inductive Table.Place.Leads : Table.Place → List Segment → Table.Place → Prop
  | nil (place : Table.Place) : Leads place [] place
  | cons {place child last : Table.Place} {segment : Segment} {rest : List Segment} :
    Child place segment child → Leads child rest last → Leads place (segment :: rest) last

/-- A path leads to a place. -/
def ElementPath.LeadsTo (path : ElementPath) (place : Table.Place) : Prop :=
  Table.Place.Leads .root path.segments place

/-- Whether a table has something at a place. -/
def Table.has (t : Table) : Table.Place → Bool
  | .root | .rows => true
  | .row n | .idCell n | .labelCell n | .label n | .removeCell n | .removeLink n | .removeIcon n =>
    (t.idAt n).isSome

variable {t t' : Table} {place child last : Table.Place} {segment : Segment}
  {segments : List Segment} {path : ElementPath} {text : String} {count row : Nat}

/-- Above what a table has there is nothing missing. -/
theorem Table.Place.Child.has (h : place.Child segment child) (hchild : t.has child) :
    t.has place := by
  cases h <;> first | rfl | exact hchild

theorem Table.Place.Leads.has (h : place.Leads segments last) (hlast : t.has last) :
    t.has place := by
  induction h with
  | nil => exact hlast
  | cons hchild _ ih => exact hchild.has (ih hlast)

/-! ## Steps -/

/-- What a step does to the table of an app whose button renders `count` rows. Waits are for what
is there already. -/
inductive Table.Does (count : Nat) : Table → Step → Table → Prop
  | waitForRun (t : Table) (limit : Option Duration) : Does count t (.waitForId "run" limit) t
  | waitForPath {t : Table} {path : ElementPath} {place : Table.Place} (limit : Option Duration) :
    path.LeadsTo place → t.has place → Does count t (.waitForPath path limit) t
  | waitForText {t : Table} {path : ElementPath} {row : Nat} {text : String}
    (limit : Option Duration) :
    path.LeadsTo (.idCell row) → t.showsId row text → Does count t (.waitForText path text limit) t
  | waitForDanger {t : Table} {path : ElementPath} {row : Nat} (limit : Option Duration) :
    path.LeadsTo (.row row) → t.isSelected row → Does count t (.waitForClass path "danger" limit) t
  | clickRun (t : Table) : Does count t (.clickId "run") (t.render count)
  | clickLabel {t : Table} {path : ElementPath} {row : Nat} :
    path.LeadsTo (.label row) → t.has (.label row) → Does count t (.clickPath path) (t.select row)
  | clickRemove {t : Table} {path : ElementPath} {row : Nat} :
    path.LeadsTo (.removeIcon row) → t.has (.removeIcon row) →
      Does count t (.clickPath path) (t.remove row)

/-- What the steps of a hook do one after the other. -/
inductive Table.DoesAll (count : Nat) : Table → List Step → Table → Prop
  | nil (t : Table) : DoesAll count t [] t
  | cons {t mid t' : Table} {step : Step} {rest : List Step} :
    Does count t step mid → DoesAll count mid rest t' → DoesAll count t (step :: rest) t'

namespace Table.DoesAll

variable {before after steps : List Step} {step : Step} {mid : Table}

theorem append (h : DoesAll count t before mid) (h' : DoesAll count mid after t') :
    DoesAll count t (before ++ after) t' := by
  induction h with
  | nil => exact h'
  | cons hstep _ ih => exact .cons hstep (ih h')

/-- The table on which a step of a hook works. -/
theorem exists_before (h : DoesAll count t steps t') (hsteps : steps = before ++ step :: after) :
    ∃ mid mid', DoesAll count t before mid ∧ Does count mid step mid' := by
  induction h generalizing before with
  | nil => cases before <;> cases hsteps
  | @cons t mid t' _ _ hstep hrest ih =>
    cases before with
    | nil =>
      cases hsteps
      exact ⟨t, mid, .nil t, hstep⟩
    | cons first before =>
      cases hsteps
      obtain ⟨mid', mid'', hbefore, hlast⟩ := ih rfl
      exact ⟨mid', mid'', .cons hstep hbefore, hlast⟩

end Table.DoesAll

/-! ## Conditions -/

namespace Dom

variable {σ : Type} (d : Dom)

/-- Whether the node at a path shows a text. -/
def showsText (path : ElementPath) (text : String) : Attempt σ Bool := do
  match ← d.textAt path with
  | none => return false
  | some content => return !content.isEmpty && contains content text

/-- Whether the node at a path has a class that contains a name. -/
def hasClass (path : ElementPath) (name : String) : Attempt σ Bool := do
  match ← d.find path with
  | none => return false
  | some node =>
    let classes : Option String ← Attempt.call d.session (.attributeOf node "class")
    return classes.any (contains · name)

/-- A wait for a text polls whether it is shown. -/
theorem waitForText_eq (path : ElementPath) (text : String) (limit : Duration) :
    (d.waitForText path text limit : Attempt σ Unit) =
      d.waitUntil ("text '" ++ text ++ "' in " ++ path.text) limit (d.showsText path text) := rfl

/-- A wait for a class polls whether a node has it. -/
theorem waitForClass_eq (path : ElementPath) (name : String) (limit : Duration) :
    (d.waitForClass path name limit : Attempt σ Unit) =
      d.waitUntil ("class '" ++ name ++ "' on " ++ path.text) limit (d.hasClass path name) := rfl

/-- The node where paths start is the given one. -/
def RootAt (w : World σ) (o : σ) (node : Node) : Prop :=
  match d.shadowHost with
  | some host => w.Replies d.session (.shadowRoot host) o (some node) o
  | none => w.Replies d.session .documentBody o (some node) o

end Dom

/-! ## The app -/

/-- An outside that behaves like the table app, in the session and below the root of a page. Every
call is answered at once, and only clicks change anything. -/
structure TableApp (σ : Type) (d : Dom) where
  world : World σ
  /-- the number of rows that the button renders -/
  count : Nat
  /-- the state shows a table -/
  Shows : σ → Table → Prop
  nodeAt : σ → Table.Place → Node
  runButton : σ → Node
  root {o : σ} {t : Table} : Shows o t → d.RootAt world o (nodeAt o .root)
  query {o : σ} {t : Table} {place child : Table.Place} {segment : Segment} : Shows o t →
    t.has place → place.Child segment child →
      world.Replies d.session (.query (nodeAt o place) segment.selector) o
        (if t.has child then some (nodeAt o child) else none : Option Node) o
  queryRun {o : σ} {t : Table} : Shows o t →
    world.Replies d.session (.query (nodeAt o .root) (Selector.ofId "run")) o
      (some (runButton o)) o
  idText {o : σ} {t : Table} {row id : Nat} : Shows o t → t.idAt row = some id →
    world.Replies d.session (.text (nodeAt o (.idCell row))) o (toString id) o
  rowClass {o : σ} {t : Table} {row id : Nat} : Shows o t → t.idAt row = some id →
    ∃ classes : Option String,
      world.Replies d.session (.attributeOf (nodeAt o (.row row)) "class") o classes o ∧
      classes.any (Dom.contains · "danger") = (t.selected == some id)
  clickRun {o : σ} {t : Table} : Shows o t → ∃ o',
    world.Replies d.session (.click (runButton o)) o () o' ∧ Shows o' (t.render count)
  clickLabel {o : σ} {t : Table} {row : Nat} : Shows o t → t.has (.label row) → ∃ o',
    world.Replies d.session (.click (nodeAt o (.label row))) o () o' ∧ Shows o' (t.select row)
  clickRemove {o : σ} {t : Table} {row : Nat} : Shows o t → t.has (.removeIcon row) → ∃ o',
    world.Replies d.session (.click (nodeAt o (.removeIcon row))) o () o' ∧ Shows o' (t.remove row)

namespace TableApp

variable {σ : Type} {d : Dom} {o : σ}

section
variable (app : TableApp σ d) (h : app.Shows o t)
include h

/-! ### Finding -/

theorem atOnce_root : Attempt.AtOnce app.world d.root o (app.nodeAt o .root) o := by
  have hroot := app.root h
  unfold Dom.RootAt at hroot
  unfold Dom.root
  cases hhost : d.shadowHost
  all_goals
    rw [hhost] at hroot
    exact .bind (.call hroot) (.pure _)

/-- A lookup that starts at a place finds the place to which the segments lead, if the table has
it. -/
theorem atOnce_locate (hplace : t.has place) (hleads : place.Leads segments last) :
    Run.AtOnce app.world (d.locate (app.nodeAt o place) segments) o
      (if t.has last then some (app.nodeAt o last) else none) o := by
  induction hleads with
  | nil place =>
    rw [if_pos hplace]
    exact .pure _
  | @cons place child last segment rest hchild hrest ih =>
    have hquery := app.query h hplace hchild
    by_cases hhas : t.has child
    · rw [if_pos hhas] at hquery
      exact .bind (.ask hquery) (ih hhas)
    · have hmissing : ¬t.has last := fun hlast => hhas (hrest.has hlast)
      rw [if_neg hhas] at hquery
      rw [if_neg hmissing]
      exact .bind (.ask hquery) (.pure _)

theorem atOnce_find (hpath : path.LeadsTo place) :
    Attempt.AtOnce app.world (d.find path) o
      (if t.has place then some (app.nodeAt o place) else none) o :=
  .bind (app.atOnce_root h) (.lift (app.atOnce_locate h rfl hpath))

theorem atOnce_findRun : Attempt.AtOnce app.world (d.findById "run") o (some (app.runButton o)) o :=
  .bind (app.atOnce_root h) (.call (app.queryRun h))

/-- A wait for a text looks at the id of the row. -/
theorem showsText (hpath : path.LeadsTo (.idCell row)) (text : String) :
    Attempt.AtOnce app.world (d.showsText path text) o (t.showsId row text) o := by
  have hfind := app.atOnce_find h hpath
  cases hid : t.idAt row with
  | none =>
    have hmissing : ¬t.has (.idCell row) := by simp [Table.has, hid]
    rw [if_neg hmissing] at hfind
    rw [Table.showsId, hid]
    exact .bind (.bind hfind (.pure _)) (.pure _)
  | some id =>
    have hhas : t.has (.idCell row) := by simp [Table.has, hid]
    have hvisible : (toString id).isEmpty = false := by simp
    rw [if_pos hhas] at hfind
    rw [Table.showsId, hid]
    have htext : Attempt.AtOnce app.world (d.textAt path) o (some (toString id)) o :=
      .bind hfind (.bind (.call (app.idText h hid)) (.pure _))
    refine .bind htext ?_
    simp only [hvisible]
    exact .pure _

/-- A wait for the class of selected rows looks whether the row is selected. -/
theorem hasDanger (hpath : path.LeadsTo (.row row)) :
    Attempt.AtOnce app.world (d.hasClass path "danger") o (t.isSelected row) o := by
  have hfind := app.atOnce_find h hpath
  cases hid : t.idAt row with
  | none =>
    have hmissing : ¬t.has (.row row) := by simp [Table.has, hid]
    rw [if_neg hmissing] at hfind
    rw [Table.isSelected, hid]
    exact .bind hfind (.pure _)
  | some id =>
    have hhas : t.has (.row row) := by simp [Table.has, hid]
    obtain ⟨classes, hcall, hdanger⟩ := app.rowClass h hid
    rw [if_pos hhas] at hfind
    rw [Table.isSelected, hid, Option.any_some, ← hdanger]
    exact .bind hfind (.bind (.call hcall) (.pure _))

/-! ### Steps -/

omit h in
theorem atOnce_click {target : Target} {node : Node} {o' : σ}
    (hfind : Attempt.AtOnce app.world (d.findTarget target) o (some node) o)
    (hclick : app.world.Replies d.session (.click node) o () o') :
    Attempt.AtOnce app.world (d.click target) o () o' :=
  .retry (.bind hfind (.bind (.pure _) (.call hclick))) _

/-- A step goes through at once and does to the app what it does to the table. -/
theorem execute {step : Step} (hstep : t.Does app.count step t') :
    ∃ o', Hook.AtOnce app.world (d.execute step) o () o' ∧ app.Shows o' t' := by
  cases hstep with
  | waitForRun =>
    exact ⟨o, .ofAttempt (.waitUntil _ _ _ (.bind (app.atOnce_findRun h) (.pure _))), h⟩
  | waitForPath limit hpath hhas =>
    have hfind := app.atOnce_find h hpath
    rw [if_pos hhas] at hfind
    exact ⟨o, .ofAttempt (.waitUntil _ _ _ (.bind hfind (.pure _))), h⟩
  | @waitForText _ _ text limit hpath hshows =>
    have hcondition := app.showsText h hpath text
    rw [hshows] at hcondition
    refine ⟨o, .ofAttempt ?_, h⟩
    rw [d.waitForText_eq]
    exact .waitUntil _ _ _ hcondition
  | waitForDanger limit hpath hselected =>
    have hcondition := app.hasDanger h hpath
    rw [hselected] at hcondition
    refine ⟨o, .ofAttempt ?_, h⟩
    rw [d.waitForClass_eq]
    exact .waitUntil _ _ _ hcondition
  | clickRun =>
    obtain ⟨o', hclick, h'⟩ := app.clickRun h
    exact ⟨o', .ofAttempt (app.atOnce_click (app.atOnce_findRun h) hclick), h'⟩
  | clickLabel hpath hhas =>
    have hfind := app.atOnce_find h hpath
    rw [if_pos hhas] at hfind
    obtain ⟨o', hclick, h'⟩ := app.clickLabel h hhas
    exact ⟨o', .ofAttempt (app.atOnce_click hfind hclick), h'⟩
  | clickRemove hpath hhas =>
    have hfind := app.atOnce_find h hpath
    rw [if_pos hhas] at hfind
    obtain ⟨o', hclick, h'⟩ := app.clickRemove h hhas
    exact ⟨o', .ofAttempt (app.atOnce_click hfind hclick), h'⟩

end

/-- A hook goes through at once and does to the app what it does to the table. -/
theorem runHook (app : TableApp σ d) {steps : List Step} (hsteps : t.DoesAll app.count steps t')
    (h : app.Shows o t) :
    ∃ o', Hook.AtOnce app.world (d.runHook steps) o () o' ∧ app.Shows o' t' := by
  induction hsteps generalizing o with
  | nil => exact ⟨o, .pure _, h⟩
  | cons hstep _ ih =>
    obtain ⟨mid, hfirst, hmid⟩ := app.execute h hstep
    obtain ⟨o', hrest, h'⟩ := ih hmid
    exact ⟨o', .bind hfirst hrest, h'⟩

end TableApp

end PaintBench
