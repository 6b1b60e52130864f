import Mathlib.Data.List.Nodup
import PaintBench.Proofs.Catalog.Suite

/-!
# Warm-ups are counted without bounds

The number of warm-ups enters the suite as the rows that are clicked and the texts that are
waited for. Up to `maxWarmups` these are the numbers of unbounded arithmetic (`countsWarmups`).
-/

namespace PaintBench.Suite

variable {α : Type}

/-! ## What hooks say -/

/-- The text a step waits for, with the path where it has to show up. -/
def awaited : Step → List (String × String)
  | .waitForText path text _ => [(path.text, text)]
  | _ => []

/-- The path a step clicks. -/
def clicked : Step → List String
  | .clickPath path => [path.text]
  | _ => []

/-- What a step in the making has to say, if it can be built. -/
def said (f : Step → List α) : Build Step → List α
  | .ok step => f step
  | .error _ => []

theorem flatMap_map_ok (f : Step → List α) (hook : List Step) :
    (hook.map .ok).flatMap (said f) = hook.flatMap f :=
  List.flatMap_map ..

@[simp]
theorem said_ok (f : Step → List α) (step : Step) : said f (.ok step) = f step := rfl

/-- A step that says nothing says nothing in the making. -/
theorem said_map {f : Step → List α} {g : ElementPath → Step} (h : ∀ path, f (g path) = [])
    (x : Build ElementPath) : said f (do return g (← x)) = [] := by
  cases x with
  | error e => rfl
  | ok path => exact h path

@[simp]
theorem said_awaited_waitText {path : String} (h : Reads path) (text : String) :
    said awaited (waitText path text) = [(path, text)] := by
  obtain ⟨p, hp⟩ := h
  rw [waitText, hp]
  exact congrArg (fun t => [(t, text)]) (text_of_ofText hp)

@[simp]
theorem said_awaited_clickPath (path : String) : said awaited (clickPath path) = [] :=
  said_map (fun _ => rfl) _

@[simp]
theorem said_awaited_waitPath (path : String) : said awaited (waitPath path) = [] :=
  said_map (fun _ => rfl) _

@[simp]
theorem said_clicked_clickPath {path : String} (h : Reads path) :
    said clicked (clickPath path) = [path] := by
  obtain ⟨p, hp⟩ := h
  rw [clickPath, hp]
  exact congrArg (fun t => [t]) (text_of_ofText hp)

@[simp]
theorem said_clicked_waitText (path text : String) : said clicked (waitText path text) = [] :=
  said_map (fun _ => rfl) _

@[simp]
theorem said_clicked_waitPath (path : String) : said clicked (waitPath path) = [] :=
  said_map (fun _ => rfl) _

theorem flatMap_awaited_removeCycle {i nextId : UInt32} (h : i ≠ 0) :
    (removeCycle i nextId).flatMap (said awaited) =
      [(idCell i, decimal i), (idCell i, decimal nextId)] := by
  simp [removeCycle, h]

theorem flatMap_clicked_removeCycle {i nextId : UInt32} (h : i ≠ 0) :
    (removeCycle i nextId).flatMap (said clicked) = [removeIcon i] := by
  simp [removeCycle, h]

/-! ## Rows -/

/-- The path of a row of any number. -/
def row (n : Nat) : String :=
  s!"//tbody/tr[{n}]"

section
variable {i : UInt32} {n : Nat}

theorem idCell_eq (h : i.toNat = n) : idCell i = row n ++ "/td[1]" := by
  rw [← h]
  rfl

theorem labelLink_eq (h : i.toNat = n) : labelLink i = row n ++ "/td[2]/a" := by
  rw [← h]
  rfl

theorem removeIcon_eq (h : i.toNat = n) : removeIcon i = row n ++ "/td[3]/a/span[1]" := by
  rw [← h]
  rfl

theorem decimal_eq (h : i.toNat = n) : decimal i = toString n := by
  rw [decimal, h]

end

/-- The rounds before the last one, counted without bounds. -/
theorem flatMap_rounds {w : UInt32} {f : UInt32 → List α} (g : Nat → List α)
    (h : ∀ i : UInt32, i.toNat < w.toNat → f i = g i.toNat) :
    ((List.range w.toNat).map UInt32.ofNat).flatMap f = (List.range w.toNat).flatMap g := by
  rw [List.flatMap_map]
  refine List.flatMap_congr fun n hn => ?_
  have hn : n < w.toNat := List.mem_range.mp hn
  have htoNat : (UInt32.ofNat n).toNat = n :=
    UInt32.toNat_ofNat_of_lt' (Nat.lt_trans hn w.toNat_lt)
  rw [h _ (htoNat.symm ▸ hn), htoNat]

theorem flatMap_rounds_eq_map {w : UInt32} {f : UInt32 → List α} (g : Nat → α)
    (h : ∀ i : UInt32, i.toNat < w.toNat → f i = [g i.toNat]) :
    ((List.range w.toNat).map UInt32.ofNat).flatMap f = (List.range w.toNat).map g :=
  (flatMap_rounds (fun n => [g n]) h).trans List.map_eq_flatMap.symm

/-- The clicks of the select benchmark. -/
theorem clicked_selected {w : UInt32} (hw : w.toNat ≤ maxWarmups) :
    (((List.range w.toNat).map UInt32.ofNat ++ [w]).map
      fun i => clickPath (labelLink (i + 1))).flatMap (said clicked) =
      (List.range (w.toNat + 1)).map fun n => row (n + 1) ++ "/td[2]/a" := by
  have hlink (i : UInt32) (hi : i.toNat ≤ w.toNat) :
      said clicked (clickPath (labelLink (i + 1))) = [row (i.toNat + 1) ++ "/td[2]/a"] := by
    have htoNat : (i + 1).toNat = i.toNat + 1 := toNat_later (Nat.le_trans hi hw) (by decide)
    rw [said_clicked_clickPath (reads_labelLink (ne_zero_of_toNat_eq htoNat)),
      labelLink_eq htoNat]
  rw [List.flatMap_map, List.flatMap_append,
    flatMap_rounds_eq_map (fun n => row (n + 1) ++ "/td[2]/a") fun i hi =>
      hlink i (Nat.le_of_lt hi),
    List.flatMap_singleton, hlink w (Nat.le_refl _), List.range_succ, List.map_append]
  rfl

section
variable {w : UInt32} (hw : w.toNat ≤ maxWarmups)
include hw

theorem toNat_nextId : (w + 5).toNat = w.toNat + 5 :=
  toNat_later hw (by decide)

/-- The texts that the removals of rows wait for. -/
theorem awaited_removed :
    ((List.range w.toNat).map UInt32.ofNat).flatMap
      (fun i => (removeCycle (w - i + 4) (w + 5)).flatMap (said awaited)) =
      (List.range w.toNat).flatMap fun n =>
        [(row (w.toNat - n + 4) ++ "/td[1]", toString (w.toNat - n + 4)),
          (row (w.toNat - n + 4) ++ "/td[1]", toString (w.toNat + 5))] := by
  refine flatMap_rounds _ fun i hi => ?_
  have hrow := toNat_removed (add_lt_size hw (by decide)) hi
  rw [flatMap_awaited_removeCycle (ne_zero_of_toNat_eq hrow), idCell_eq hrow, decimal_eq hrow,
    decimal_eq (toNat_nextId hw)]

/-- The clicks that remove rows. -/
theorem clicked_removed :
    ((List.range w.toNat).map UInt32.ofNat).flatMap
      (fun i => (removeCycle (w - i + 4) (w + 5)).flatMap (said clicked)) =
      (List.range w.toNat).map fun n => row (w.toNat - n + 4) ++ "/td[3]/a/span[1]" := by
  refine flatMap_rounds_eq_map _ fun i hi => ?_
  have hrow := toNat_removed (add_lt_size hw (by decide)) hi
  rw [flatMap_clicked_removeCycle (ne_zero_of_toNat_eq hrow), removeIcon_eq hrow]

end

/-! ## Benchmarks -/

/-- The benchmarks with warm-ups count them in unbounded arithmetic: the rows that are clicked
and the texts that are waited for. -/
structure CountsWarmups (w : Nat) (suite : List Benchmark) : Prop where
  replace : ∀ b ∈ suite, b.id = "02_replace1k" →
    b.initHook.flatMap awaited = ((List.range w).map fun i =>
      (idCell 1, toString (i * 1000 + 1))) ∧
    b.runHook.flatMap awaited = [(idCell 1, toString (w * 1000 + 1))]
  select : ∀ b ∈ suite, b.id = "04_select1k" →
    b.initHook.flatMap clicked = (List.range (w + 1)).map fun i => row (i + 1) ++ "/td[2]/a"
  remove : ∀ b ∈ suite, b.id = "06_remove-one-1k" →
    b.initHook.flatMap awaited = ((List.range w).flatMap fun i =>
      [(row (w - i + 4) ++ "/td[1]", toString (w - i + 4)),
        (row (w - i + 4) ++ "/td[1]", toString (w + 5))]) ++
      [(idCell 5, toString (w + 5)), (idCell 4, "4"), (idCell 6, toString (w + 6)),
        (idCell 6, toString (w + 7))] ∧
    b.initHook.flatMap clicked = ((List.range w).map fun i =>
      row (w - i + 4) ++ "/td[3]/a/span[1]") ++ [removeIcon 6] ∧
    b.runHook.flatMap awaited = [(idCell 4, toString (w + 5))]

/-- The hooks of a benchmark of the suite, found by its id. -/
theorem hooks_of_mem {shortTimeout : Duration} {w : UInt32} {built : List Benchmark}
    (hbuilt : timedBenchmarks shortTimeout w = built.map .ok) (hids : built.map (·.id) = timedIds)
    {id label description : String} {kind : BenchmarkKind} {throttle : Option Float}
    {init run after : List (Build Step)}
    (hmem : timed id label description kind throttle init run after ∈
      timedBenchmarks shortTimeout w)
    {b : Benchmark} (hb : b ∈ built ++ [startupBenchmark]) (hid : b.id = id)
    (hstartup : id ≠ "30_startup") :
    init = b.initHook.map .ok ∧ run = b.runHook.map .ok := by
  rw [hbuilt] at hmem
  obtain ⟨b', hb', heq⟩ := List.mem_map.mp hmem
  obtain ⟨hid', hhooks⟩ := hooks_of_timed heq.symm
  have hnodup : (built.map (·.id)).Nodup := hids ▸ (by decide)
  have hmem' : b ∈ built := by
    rcases List.mem_append.mp hb with hb | hb
    · exact hb
    · rw [List.mem_singleton.mp hb] at hid
      exact absurd hid.symm hstartup
  rwa [List.inj_on_of_nodup_map hnodup hmem' hb' (hid.trans hid'.symm)]

/-- The suite counts as far as 32 bits go. -/
theorem countsWarmups {shortTimeout : Duration} {w : UInt32} {built : List Benchmark}
    (hw : w.toNat ≤ maxWarmups) (hbuilt : timedBenchmarks shortTimeout w = built.map .ok)
    (hids : built.map (·.id) = timedIds) :
    CountsWarmups w.toNat (built ++ [startupBenchmark]) where
  replace b hb hid := by
    obtain ⟨hinit, hrun⟩ :=
      hooks_of_mem hbuilt hids (.tail _ (.head _)) hb hid (by decide)
    rw [← flatMap_map_ok, ← hinit, ← flatMap_map_ok, ← hrun]
    constructor
    · rw [List.flatMap_cons, List.flatMap_assoc]
      refine flatMap_rounds_eq_map (fun n => (idCell 1, toString (n * 1000 + 1)))
        fun i hi => ?_
      rw [← decimal_eq (toNat_thousandth (i := i) (by omega))]
      simp [awaited]
    · rw [← decimal_eq (toNat_thousandth hw)]
      simp [awaited]
  select b hb hid := by
    obtain ⟨hinit, -⟩ :=
      hooks_of_mem hbuilt hids (.tail _ (.tail _ (.tail _ (.head _)))) hb hid (by decide)
    rw [← flatMap_map_ok, ← hinit, List.flatMap_append, clicked_selected hw]
    simp [thousandRows, clicked]
  remove b hb hid := by
    obtain ⟨hinit, hrun⟩ := hooks_of_mem hbuilt hids
      (.tail _ (.tail _ (.tail _ (.tail _ (.tail _ (.head _)))))) hb hid (by decide)
    have hsecond : (w + 5 + 1).toNat = w.toNat + 6 := by
      rw [UInt32.add_assoc]
      exact toNat_later hw (by decide)
    have hthird : (w + 5 + 2).toNat = w.toNat + 7 := by
      rw [UInt32.add_assoc]
      exact toNat_later hw (by decide)
    simp only [← flatMap_map_ok, ← hinit, ← hrun, List.flatMap_append, List.flatMap_assoc]
    rw [awaited_removed hw, clicked_removed hw, ← decimal_eq (toNat_nextId hw),
      ← decimal_eq hsecond, ← decimal_eq hthird]
    simp [thousandRows, awaited, clicked]

end PaintBench.Suite
