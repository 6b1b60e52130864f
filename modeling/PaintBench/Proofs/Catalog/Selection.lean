import PaintBench.Proofs.Catalog.FittingHooks

/-!
# Selected rows

The benchmark that selects a row clicks labels in its init hook, one more than there are warm-ups,
and the label of the second row in its run hook. With a single warm-up the second row has been
selected before the measured click, which then changes nothing, and the wait after it is over
before it begins (`selection_changes_iff`).
-/

namespace PaintBench

/-! ## Steps that select rows -/

/-- The row whose label a step clicks. -/
def Step.selectedRow : Step → Option Nat
  | .clickPath path =>
    match path.segments with
    | [⟨"tbody", 1⟩, ⟨"tr", row⟩, ⟨"td", 2⟩, ⟨"a", 1⟩] => some row
    | _ => none
  | _ => none

/-- The row that a hook selects last. -/
def lastSelected (hook : List Step) : Option Nat :=
  (hook.filterMap Step.selectedRow).getLast?

/-- Only one list of segments leads to the label of a row. -/
theorem Table.Place.Leads.eq_of_label {segments : List Segment} {row : Nat}
    (h : Leads .root segments (.label row)) :
    segments = [⟨"tbody", 1⟩, ⟨"tr", row⟩, ⟨"td", 2⟩, ⟨"a", 1⟩] := by
  obtain _ | ⟨⟨⟩, _ | ⟨⟨⟩, _ | ⟨hcell, h⟩⟩⟩ := h
  cases hcell with
  | idCell => obtain _ | ⟨⟨⟩, -⟩ := h
  | labelCell =>
    obtain _ | ⟨⟨⟩, _ | ⟨⟨⟩, -⟩⟩ := h
    rfl
  | removeCell => obtain _ | ⟨⟨⟩, _ | ⟨⟨⟩, _ | ⟨⟨⟩, -⟩⟩⟩ := h

theorem Step.selectedRow_of_leadsTo {path : ElementPath} {row : Nat}
    (h : path.LeadsTo (.label row)) : selectedRow (.clickPath path) = some row := by
  simp [selectedRow, h.eq_of_label]

theorem lastSelected_append {front : List Step} {step : Step} {row : Nat}
    (h : step.selectedRow = some row) : lastSelected (front ++ [step]) = some row := by
  simp [lastSelected, h]

namespace Table

variable {count : Nat} {t : Table}

/-- The table after some rows were selected, one after the other. -/
def selectAll (t : Table) (rows : List Nat) : Table :=
  rows.foldl select t

theorem idAt_select (t : Table) (selected row : Nat) :
    (t.select selected).idAt row = t.idAt row := by
  cases row <;> rfl

theorem idAt_selectAll (t : Table) (rows : List Nat) (row : Nat) :
    (t.selectAll rows).idAt row = t.idAt row := by
  induction rows generalizing t with
  | nil => rfl
  | cons first rest ih => exact (ih (t.select first)).trans (idAt_select t first row)

end Table

namespace Suite

variable {count : Nat} {t : Table} {options : RunOptions} {suite : List Benchmark} {b : Benchmark}

/-- A click on the label of a row, as a step of a hook. -/
theorem clickLabel_eq {i : UInt32} (hi : i ≠ 0) :
    ∃ p : ElementPath, clickPath (labelLink i) = .ok (.clickPath p) ∧
      p.LeadsTo (.label i.toNat) := by
  obtain ⟨p, hp, hleads⟩ := leadsTo_labelLink hi
  refine ⟨p, ?_, hleads⟩
  rw [clickPath, hp]
  rfl

/-- Clicks on labels select the rows of the labels. -/
theorem doesAll_clickLabels {rows : List UInt32} {hook : List Step}
    (h : rows.map (fun i => clickPath (labelLink i)) = hook.map .ok)
    (hrows : ∀ i ∈ rows, i ≠ 0 ∧ t.has (.label i.toNat)) :
    t.DoesAll count hook (t.selectAll (rows.map UInt32.toNat)) := by
  induction rows generalizing t hook with
  | nil =>
    cases hook with
    | nil => exact .nil t
    | cons step rest => cases h
  | cons i rows ih =>
    cases hook with
    | nil => cases h
    | cons step rest =>
      obtain ⟨hi, hhas⟩ := hrows i (.head _)
      obtain ⟨p, hp, hleads⟩ := clickLabel_eq hi
      obtain ⟨hstep, hrest⟩ := List.cons.inj h
      obtain rfl : .clickPath p = step := Except.ok.inj (hp.symm.trans hstep)
      refine .cons (.clickLabel hleads hhas) (ih hrest fun j hj => ?_)
      obtain ⟨hj, hhas⟩ := hrows j (.tail _ hj)
      rw [Table.has] at hhas ⊢
      exact ⟨hj, (Table.idAt_select t _ _).symm ▸ hhas⟩

/-! ## The select benchmark -/

/-- The rows whose labels the init hook clicks. -/
def selectedRows (w : UInt32) : List UInt32 :=
  ((List.range w.toNat).map UInt32.ofNat ++ [w]).map (· + 1)

theorem selectedRows_eq (w : UInt32) :
    selectedRows w = ((List.range w.toNat).map UInt32.ofNat).map (· + 1) ++ [w + 1] :=
  List.map_append

theorem toNat_lastRow {w : UInt32} (hw : w.toNat + 4 < UInt32.size) :
    (w + 1).toNat = w.toNat + 1 :=
  toNat_add_of_lt (by simp only [UInt32.reduceToNat]; omega)

theorem toNat_of_mem_selectedRows {w i : UInt32} (hw : w.toNat + 4 < UInt32.size)
    (h : i ∈ selectedRows w) : ∃ n ≤ w.toNat, i.toNat = n + 1 := by
  obtain ⟨j, hj, rfl⟩ := List.mem_map.mp h
  have hle : j.toNat ≤ w.toNat := toNat_le_of_mem_rounds hj
  refine ⟨j.toNat, hle, toNat_add_of_lt ?_⟩
  simp only [UInt32.reduceToNat]
  omega

/-- The hooks of the select benchmark. The init hook renders rows and clicks labels, and the run
hook clicks the label of the second row. -/
structure SelectHooks (limit : Option Duration) (w : UInt32) (b : Benchmark) : Prop where
  exists_init : ∃ start clicks : List Step, b.initHook = start ++ clicks ∧
    thousandRows (.waitForId · limit) (labelLink 1) = start.map .ok ∧
    (selectedRows w).map (fun i => clickPath (labelLink i)) = clicks.map .ok
  exists_run : ∃ click row : ElementPath,
    b.runHook = [.clickPath click, .waitForClass row "danger" none] ∧
    click.LeadsTo (.label 2) ∧ row.LeadsTo (.row 2)

theorem selectHooks_of_mem (h : standard options = .ok suite) (hb : b ∈ suite)
    (hid : b.id = "04_select1k") :
    SelectHooks (some options.shortTimeout) options.warmupCount b := by
  obtain ⟨built, hstandard, hbuilt, hids⟩ := exists_standard_of_lt (lt_of_standard h)
  obtain rfl : suite = built ++ [startupBenchmark] := Except.ok.inj (h.symm.trans hstandard)
  obtain ⟨hinit, hrun⟩ :=
    hooks_of_mem hbuilt hids (.tail _ (.tail _ (.tail _ (.head _)))) hb hid (by decide)
  constructor
  · obtain ⟨start, clicks, hhook, hstart, hclicks⟩ := List.map_eq_append_iff.mp hinit.symm
    refine ⟨start, clicks, hhook, hstart.symm, ?_⟩
    rw [hclicks, selectedRows, List.map_map]
    rfl
  · obtain ⟨click, hclick, hlabel⟩ := clickLabel_eq (i := 2) (by decide)
    obtain ⟨row, hrow, hleads⟩ := leadsTo_rowPath (by decide : (2 : UInt32) ≠ 0)
    have hwait : waitClass (rowPath 2) "danger" = .ok (.waitForClass row "danger" none) := by
      rw [waitClass, hrow]
      rfl
    rw [hclick, hwait] at hrun
    have hhook : [.clickPath click, .waitForClass row "danger" none] = b.runHook :=
      map_ok_injective hrun
    exact ⟨click, row, hhook.symm, hlabel, hleads⟩

namespace SelectHooks

variable {limit : Option Duration} {w : UInt32}

theorem lastSelected_initHook (h : SelectHooks limit w b) (hw : w.toNat + 4 < UInt32.size) :
    lastSelected b.initHook = some (w.toNat + 1) := by
  obtain ⟨start, clicks, hhook, -, hclicks⟩ := h.exists_init
  obtain ⟨p, hp, hleads⟩ := clickLabel_eq (ne_zero_of_toNat_eq (toNat_lastRow hw))
  rw [selectedRows_eq, List.map_append, List.map_singleton, hp] at hclicks
  obtain ⟨front, last, rfl, -, hlastStep⟩ := List.map_eq_append_iff.mp hclicks.symm
  obtain rfl : last = [.clickPath p] := map_ok_injective hlastStep
  rw [hhook, ← List.append_assoc, ← toNat_lastRow hw]
  exact lastSelected_append (Step.selectedRow_of_leadsTo hleads)

theorem lastSelected_runHook (h : SelectHooks limit w b) : lastSelected b.runHook = some 2 := by
  obtain ⟨click, row, hhook, hlabel, -⟩ := h.exists_run
  rw [hhook, lastSelected, List.filterMap_cons_some (Step.selectedRow_of_leadsTo hlabel)]
  rfl

/-- What the init hook leaves: all rows, of which the last one clicked is selected. -/
theorem exists_doesAll (h : SelectHooks limit w b) (hw : w.toNat + 4 < UInt32.size)
    (hcount : w.toNat + 1 ≤ count) : ∃ t, Table.DoesAll count .fresh b.initHook t ∧
      (∀ row, t.idAt row = (Table.fresh.render count).idAt row) ∧
      t.selected = some (w.toNat + 1) := by
  obtain ⟨start, clicks, hhook, hstart, hclicks⟩ := h.exists_init
  have hrender : Fits count .fresh _ (Table.fresh.render count) :=
    fits_thousandRows (by omega) limit
  rw [hstart] at hrender
  have hselect : (Table.fresh.render count).DoesAll count clicks _ :=
    doesAll_clickLabels hclicks fun i hi => by
      obtain ⟨n, hn, hin⟩ := toNat_of_mem_selectedRows hw hi
      refine ⟨ne_zero_of_toNat_eq hin, ?_⟩
      rw [Table.has, hin, Table.idAt_render_fresh (Nat.succ_pos n) (by omega)]
      rfl
  refine ⟨_, hhook ▸ hrender.of_map_ok.doesAll.append hselect, Table.idAt_selectAll _ _, ?_⟩
  rw [selectedRows_eq, List.map_append, Table.selectAll, List.foldl_append]
  refine (Table.idAt_selectAll _ _ (w + 1).toNat).trans ?_
  rw [toNat_lastRow hw, Table.idAt_render_fresh (Nat.succ_pos _) hcount]

end SelectHooks

/-- The run hook of the select benchmark selects another row than the init hook did last, unless
there is exactly one warm-up. At the table app, its wait is over before the click in that case, and
only after the click in all others. -/
theorem selection_changes_iff (h : standard options = .ok suite) :
    "04_select1k" ∈ suite.map (·.id) ∧ ∀ b ∈ suite, b.id = "04_select1k" →
      (lastSelected b.initHook ≠ lastSelected b.runHook ↔ options.warmupCount ≠ 1) ∧
      ∃ (click : Step) (path : ElementPath),
        b.runHook = [click, .waitForClass path "danger" none] ∧
        ∀ {σ : Type} {d : Dom} (app : TableApp σ d) (terms : Terms σ) (s : Situation σ),
          terms.world = app.world → Run.Terms.allows terms s.now → 0 < terms.patience →
          app.Shows s.outside .fresh → options.warmupCount.toNat + 1 ≤ app.count →
          2 ≤ app.count →
            d.FindsAfter terms s b.initHook (d.hasClass path "danger")
              (decide (options.warmupCount = 1)) ∧
            d.FindsAfter terms s (b.initHook ++ [click]) (d.hasClass path "danger") true := by
  have hw := lt_of_standard h
  obtain ⟨built, hstandard, -, hids⟩ := exists_standard_of_lt hw
  obtain rfl : suite = built ++ [startupBenchmark] := Except.ok.inj (h.symm.trans hstandard)
  have hone : options.warmupCount = 1 ↔ options.warmupCount.toNat = 1 := UInt32.toNat_inj.symm
  constructor
  · rw [List.map_append, hids]
    exact List.mem_append_left _ (by decide)
  · intro b hb hid
    have hhooks := selectHooks_of_mem h hb hid
    constructor
    · rw [hhooks.lastSelected_initHook hw, hhooks.lastSelected_runHook, ne_eq, Option.some_inj,
        ne_eq, hone]
      omega
    · obtain ⟨click, row, hrun, hlabel, hleads⟩ := hhooks.exists_run
      refine ⟨.clickPath click, row, hrun, ?_⟩
      intro σ d app terms s hworld hallows hpatience hs hcount htwo
      obtain ⟨t, hinit, hid, hselected⟩ := hhooks.exists_doesAll hw hcount
      have hsecond : t.idAt 2 = some 2 :=
        (hid 2).trans (Table.idAt_render_fresh (by decide) htwo)
      constructor
      · refine app.findsAfter hworld hallows hpatience hs hinit fun o ho => ?_
        have hfound : t.isSelected 2 = decide (options.warmupCount = 1) := by
          rw [Table.isSelected, hsecond, Option.any_some, hselected, Bool.eq_iff_iff]
          simp [hone]
        exact hfound ▸ app.hasDanger ho hleads
      · have hhas : t.has (.label 2) := by
          rw [Table.has, hsecond]
          rfl
        have hclick := hinit.append (.cons (.clickLabel hlabel hhas) (.nil _))
        refine app.findsAfter hworld hallows hpatience hs hclick fun o ho => ?_
        have hfound : (t.select 2).isSelected 2 = true := by
          rw [Table.isSelected, Table.idAt_select, hsecond, Option.any_some, Table.select, hsecond]
          exact beq_self_eq_true _
        exact hfound ▸ app.hasDanger ho hleads

/-- With two warm-ups the selection changes, at a table of a thousand rows. -/
theorem selection_changes_after_two :
    let d : Dom := ⟨0, none, .ofMilliseconds 300, .ofMilliseconds 20⟩
    let app := TableApp.plain d 1000
    let options : RunOptions := { RunOptions.standard with warmupCount := 2 }
    let terms : Terms Table := ⟨app.world, none, 1⟩
    let s : Situation Table := .start .fresh (.empty [])
    ∃ suite, standard options = .ok suite ∧ ∃ b ∈ suite, b.id = "04_select1k" ∧
      lastSelected b.initHook ≠ lastSelected b.runHook ∧
      ∃ (click : Step) (path : ElementPath),
        b.runHook = [click, .waitForClass path "danger" none] ∧
        d.FindsAfter terms s b.initHook (d.hasClass path "danger") false ∧
        d.FindsAfter terms s (b.initHook ++ [click]) (d.hasClass path "danger") true := by
  intro d app options terms s
  obtain ⟨built, hstandard, -, -⟩ :=
    exists_standard_of_lt (by decide : options.warmupCount.toNat + 4 < UInt32.size)
  obtain ⟨hmem, hchanges⟩ := selection_changes_iff hstandard
  obtain ⟨b, hb, hid⟩ := List.mem_map.mp hmem
  obtain ⟨hiff, click, path, hrun, hfound⟩ := hchanges b hb hid
  exact ⟨_, hstandard, b, hb, hid, hiff.mpr (by decide), click, path, hrun,
    hfound app terms s rfl rfl (by decide) rfl (by decide) (by decide)⟩

/-- With one warm-up it does not. -/
theorem selection_stays_after_one : ¬∀ (options : RunOptions) (suite : List Benchmark),
    standard options = .ok suite → ∀ b ∈ suite, b.id = "04_select1k" →
      lastSelected b.initHook ≠ lastSelected b.runHook := by
  intro h
  let options : RunOptions := { RunOptions.standard with warmupCount := 1 }
  obtain ⟨built, hstandard, -, hids⟩ :=
    exists_standard_of_lt (by decide : options.warmupCount.toNat + 4 < UInt32.size)
  have hmem : "04_select1k" ∈ built.map (·.id) := hids ▸ (by decide)
  obtain ⟨b, hb, hid⟩ := List.mem_map.mp hmem
  have hb : b ∈ built ++ [startupBenchmark] := List.mem_append_left _ hb
  have hhooks := selectHooks_of_mem hstandard hb hid
  refine h _ _ hstandard b hb hid ?_
  rw [hhooks.lastSelected_initHook (by decide), hhooks.lastSelected_runHook]
  rfl

end Suite

end PaintBench
