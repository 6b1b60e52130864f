import PaintBench.Catalog.Suite
import PaintBench.Proofs.Page.PathGrammar

/-!
# The standard suite can be built

The path of a row reads unless the row has the number zero (`reads_rowPath`), and so do the paths
below it. Unless the numbers of the rows wrap around, every benchmark of the suite is built, under
an id of its own (`exists_standard_of_lt`, `nodup_ids`). If they do wrap around, one of them is
zero, and there is no suite (`lt_of_standard`).
-/

namespace PaintBench.Suite

open Segment (Readable parts)

variable {α β : Type}

/-- The largest number of warm-ups after which the ids of rows still have 32 bits. -/
def maxWarmups : Nat := 4294967

/-! ## What can be built -/

/-- A part of the suite can be built. -/
def Builds (x : Build α) : Prop := ∃ a, x = .ok a

/-- All parts of a list can be built. -/
def BuildsAll (l : List (Build α)) : Prop := ∀ x ∈ l, Builds x

@[simp]
theorem builds_ok (a : α) : Builds (.ok a : Build α) := ⟨a, rfl⟩

theorem builds_map {x : Build α} {f : α → β} : Builds (do return f (← x)) ↔ Builds x := by
  constructor
  · rintro ⟨b, h⟩
    obtain ⟨a, hx, -⟩ := bind_eq_ok_iff.mp h
    exact ⟨a, hx⟩
  · rintro ⟨a, rfl⟩
    exact ⟨f a, rfl⟩

@[simp]
theorem buildsAll_nil : BuildsAll ([] : List (Build α)) := nofun

@[simp]
theorem buildsAll_cons {x : Build α} {l : List (Build α)} :
    BuildsAll (x :: l) ↔ Builds x ∧ BuildsAll l :=
  List.forall_mem_cons

@[simp]
theorem buildsAll_append {l l' : List (Build α)} :
    BuildsAll (l ++ l') ↔ BuildsAll l ∧ BuildsAll l' :=
  List.forall_mem_append

@[simp]
theorem buildsAll_map {f : β → Build α} {l : List β} :
    BuildsAll (l.map f) ↔ ∀ b ∈ l, Builds (f b) :=
  List.forall_mem_map

@[simp]
theorem buildsAll_flatMap {f : β → List (Build α)} {l : List β} :
    BuildsAll (l.flatMap f) ↔ ∀ b ∈ l, BuildsAll (f b) := by
  simp only [BuildsAll, List.mem_flatMap, forall_exists_index, and_imp]
  exact forall_comm.trans (forall_congr' fun b => forall_comm)

/-- What can be built consists of what was built. -/
theorem BuildsAll.exists_eq_map {l : List (Build α)} (h : BuildsAll l) :
    ∃ as : List α, l = as.map .ok := by
  induction l with
  | nil => exact ⟨[], rfl⟩
  | cons x l ih =>
    obtain ⟨⟨a, rfl⟩, hl⟩ := buildsAll_cons.mp h
    obtain ⟨as, rfl⟩ := ih hl
    exact ⟨a :: as, rfl⟩

theorem steps_map_ok (hook : List Step) : steps (hook.map .ok) = .ok hook := by
  induction hook with
  | nil => rfl
  | cons step rest ih =>
    rw [List.map_cons, steps, ih]
    rfl

theorem eq_map_of_steps {l : List (Build Step)} {hook : List Step} (h : steps l = .ok hook) :
    l = hook.map .ok := by
  induction l generalizing hook with
  | nil =>
    cases h
    rfl
  | cons x l ih =>
    rw [steps] at h
    obtain ⟨step, hstep, h⟩ := bind_eq_ok_iff.mp h
    obtain ⟨rest, hrest, h⟩ := bind_eq_ok_iff.mp h
    cases h
    rw [hstep, ih hrest, List.map_cons]

theorem collect_map_ok (bs : List Benchmark) : collect (bs.map .ok) = .ok bs := by
  induction bs with
  | nil => rfl
  | cons b rest ih =>
    rw [List.map_cons, collect, ih]
    rfl

theorem eq_map_of_collect {l : List (Build Benchmark)} {bs : List Benchmark}
    (h : collect l = .ok bs) : l = bs.map .ok := by
  induction l generalizing bs with
  | nil =>
    cases h
    rfl
  | cons x l ih =>
    rw [collect] at h
    obtain ⟨b, hb, h⟩ := bind_eq_ok_iff.mp h
    obtain ⟨rest, hrest, h⟩ := bind_eq_ok_iff.mp h
    cases h
    rw [hb, ih hrest, List.map_cons]

/-- A benchmark whose hooks can be built is the benchmark of these hooks. -/
theorem timed_map_ok (id label description : String) (kind : BenchmarkKind)
    (throttle : Option Float) (init run after : List Step) :
    timed id label description kind throttle (init.map .ok) (run.map .ok) (after.map .ok) =
      .ok (.timed ⟨⟨id, label, description, kind, throttle⟩, init, run, after⟩) := by
  rw [timed, steps_map_ok, steps_map_ok, steps_map_ok]
  rfl

/-- The hooks of a benchmark that was built. -/
theorem hooks_of_timed {id label description : String} {kind : BenchmarkKind}
    {throttle : Option Float} {init run after : List (Build Step)} {b : Benchmark}
    (h : timed id label description kind throttle init run after = .ok b) :
    b.id = id ∧ init = b.initHook.map .ok ∧ run = b.runHook.map .ok := by
  obtain ⟨initHook, hinit, h⟩ := bind_eq_ok_iff.mp h
  obtain ⟨runHook, hrun, h⟩ := bind_eq_ok_iff.mp h
  obtain ⟨afterHook, -, h⟩ := bind_eq_ok_iff.mp h
  cases h
  exact ⟨rfl, eq_map_of_steps hinit, eq_map_of_steps hrun⟩

/-! ## Paths -/

/-- A path reads. -/
def Reads (path : String) : Prop := Builds (ElementPath.ofText path)

theorem text_of_ofText {path : String} {p : ElementPath} (h : ElementPath.ofText path = .ok p) :
    p.text = path := by
  rw [ElementPath.ofText, ElementPath.parse] at h
  split at h <;> cases h
  rfl

/-- A path of two readable parts reads, if there is something in the first. -/
theorem reads_of_toList_eq {path : String} {s t : List Char} (h : path.toList = s ++ '/' :: t)
    (hs : Readable s) (ht : Readable t) (hne : parts s ≠ []) : Reads path := by
  have hparts : parts path.toList ≠ [] := by
    rw [h, Segment.parts_append]
    exact List.append_ne_nil_of_left_ne_nil hne _
  obtain ⟨segments, hread⟩ := Segment.exists_readAll (h ▸ hs.append ht) hparts
  refine ⟨⟨path, segments, hread⟩, ?_⟩
  rw [ElementPath.ofText, ElementPath.parse_text ⟨path, segments, hread⟩]
  rfl

theorem toList_rowPath (row : UInt32) : (rowPath row).toList =
    "//tbody".toList ++ '/' :: ("tr".toList ++ '[' :: (Decimal.digitsOf row.toNat ++ [']'])) := by
  change ("//tbody/tr[" ++ toString row.toNat ++ "]").toList = _
  simp [String.toList_append, Decimal.digitsOf]

theorem parts_rowPath_ne_nil (row : UInt32) : parts (rowPath row).toList ≠ [] := by
  rw [toList_rowPath, Segment.parts_append]
  exact List.append_ne_nil_of_left_ne_nil (by decide) _

theorem readParts_row {row : UInt32} (h : row ≠ 0) :
    Segment.readParts (parts ("tr".toList ++ '[' :: (Decimal.digitsOf row.toNat ++ [']']))) =
      .ok [⟨"tr", row.toNat⟩] := by
  have hprint : "tr".toList ++ '[' :: (Decimal.digitsOf row.toNat ++ [']']) =
      (Segment.print ⟨"tr", row.toNat⟩).toList :=
    (Segment.toList_print ⟨"tr", row.toNat⟩).symm
  have hprintable : Segment.IsPrintable ⟨"tr", row.toNat⟩ :=
    ⟨(by decide : "tr" ≠ ""), (by decide : '/' ∉ "tr".toList), (by decide : '[' ∉ "tr".toList),
      Nat.pos_of_ne_zero fun h' => h (UInt32.toNat_inj.mp h'), row.toNat_lt⟩
  have hne : (Segment.print ⟨"tr", row.toNat⟩).toList ≠ [] := by simp [Segment.toList_print]
  rw [hprint, Segment.parts_of_slash_not_mem hprintable.slash_not_mem_print hne, Segment.readParts,
    (Segment.read_eq_ok_iff hne).mpr hprintable.isPart]
  rfl

theorem readable_row {row : UInt32} (h : row ≠ 0) :
    Readable ("tr".toList ++ '[' :: (Decimal.digitsOf row.toNat ++ [']'])) :=
  ⟨_, readParts_row h⟩

@[simp]
theorem reads_rowPath {row : UInt32} (h : row ≠ 0) : Reads (rowPath row) :=
  reads_of_toList_eq (toList_rowPath row) ⟨_, rfl⟩ (readable_row h) (by decide)

/-- A path below a row reads, if its tail does. -/
theorem reads_below {row : UInt32} (h : row ≠ 0) {tail : String} {t : List Char}
    (htail : tail.toList = '/' :: t) (ht : Readable t) : Reads (rowPath row ++ tail) := by
  refine reads_of_toList_eq (s := (rowPath row).toList) (t := t) ?_ ?_ ht
    (parts_rowPath_ne_nil row)
  · rw [String.toList_append, htail]
  · rw [toList_rowPath]
    exact Readable.append ⟨_, rfl⟩ (readable_row h)

@[simp]
theorem reads_idCell {row : UInt32} (h : row ≠ 0) : Reads (idCell row) :=
  reads_below h (t := "td[1]".toList) rfl ⟨_, rfl⟩

@[simp]
theorem reads_labelLink {row : UInt32} (h : row ≠ 0) : Reads (labelLink row) :=
  reads_below h (t := "td[2]/a".toList) rfl ⟨_, rfl⟩

@[simp]
theorem reads_removeIcon {row : UInt32} (h : row ≠ 0) : Reads (removeIcon row) :=
  reads_below h (t := "td[3]/a/span[1]".toList) rfl ⟨_, rfl⟩

/-! ## Steps -/

section
variable {path : String}

@[simp]
theorem builds_clickPath : Builds (clickPath path) ↔ Reads path := builds_map

@[simp]
theorem builds_waitPath : Builds (waitPath path) ↔ Reads path := builds_map

@[simp]
theorem builds_waitAbsent : Builds (waitAbsent path) ↔ Reads path := builds_map

@[simp]
theorem builds_waitText {text : String} : Builds (waitText path text) ↔ Reads path := builds_map

@[simp]
theorem builds_waitClass {name : String} : Builds (waitClass path name) ↔ Reads path := builds_map

@[simp]
theorem builds_capture {name : String} : Builds (capture path name) ↔ Reads path := builds_map

@[simp]
theorem builds_waitCaptured {name : String} : Builds (waitCaptured path name) ↔ Reads path :=
  builds_map

@[simp]
theorem buildsAll_thousandRows {waitId : String → Step} :
    BuildsAll (thousandRows waitId path) ↔ Reads path := by
  simp [thousandRows]

end

@[simp]
theorem buildsAll_swapCycle : BuildsAll swapCycle := by
  simp [swapCycle]

theorem buildsAll_removeCycle {row nextId : UInt32} (h : row ≠ 0) :
    BuildsAll (removeCycle row nextId) := by
  simp [removeCycle, h]

/-! ## Benchmarks -/

/-- The id of a benchmark that can be built. -/
def builtId (x : Build Benchmark) : Option String :=
  x.toOption.map Benchmark.id

@[simp]
theorem builtId_timed {id label description : String} {kind : BenchmarkKind}
    {throttle : Option Float} {init run after : List (Build Step)} (hinit : BuildsAll init)
    (hrun : BuildsAll run) (hafter : BuildsAll after) :
    builtId (timed id label description kind throttle init run after) = some id := by
  obtain ⟨init, rfl⟩ := hinit.exists_eq_map
  obtain ⟨run, rfl⟩ := hrun.exists_eq_map
  obtain ⟨after, rfl⟩ := hafter.exists_eq_map
  rw [timed_map_ok]
  rfl

/-- Benchmarks with ids are built, and these are their ids. -/
theorem exists_eq_map_of_builtId {l : List (Build Benchmark)} {ids : List String}
    (h : l.map builtId = ids.map some) :
    ∃ bs : List Benchmark, l = bs.map .ok ∧ bs.map (·.id) = ids := by
  induction l generalizing ids with
  | nil =>
    cases ids with
    | nil => exact ⟨[], rfl, rfl⟩
    | cons id ids => cases h
  | cons x l ih =>
    cases ids with
    | nil => cases h
    | cons id ids =>
      obtain ⟨hx, hl⟩ := List.cons.inj h
      obtain ⟨bs, rfl, rfl⟩ := ih hl
      cases x with
      | error e => cases hx
      | ok b => exact ⟨b :: bs, rfl, congrArg (· :: _) (Option.some.inj hx)⟩

/-- The ids of the timed benchmarks. -/
def timedIds : List String :=
  ["01_run1k", "02_replace1k", "03_update10th1k_x16", "04_select1k", "05_swap1k",
    "06_remove-one-1k", "07_create10k", "08_create1k-after1k_x2", "09_clear1k_x8",
    "21_ready-memory", "22_run-memory", "23_update5-memory", "24_run5-memory",
    "25_run-clear-memory"]

/-- The ids of the suite. -/
def ids : List String := timedIds ++ ["30_startup"]

theorem nodup_ids : ids.Nodup := by decide

/-! ## Counting -/

section
variable {i w : UInt32}

/-- The rounds before the last one. -/
theorem mem_rounds : i ∈ (List.range w.toNat).map UInt32.ofNat ↔ i.toNat < w.toNat := by
  simp only [List.mem_map, List.mem_range]
  constructor
  · rintro ⟨n, hn, rfl⟩
    rwa [UInt32.toNat_ofNat_of_lt' (Nat.lt_trans hn w.toNat_lt)]
  · exact fun h => ⟨i.toNat, h, UInt32.ofNat_toNat⟩

theorem toNat_le_of_mem_rounds (h : i ∈ (List.range w.toNat).map UInt32.ofNat ++ [w]) :
    i.toNat ≤ w.toNat := by
  rcases List.mem_append.mp h with h | h
  · exact Nat.le_of_lt (mem_rounds.mp h)
  · exact Nat.le_of_eq (congrArg UInt32.toNat (List.mem_singleton.mp h))

theorem toNat_thousandth (hi : i.toNat ≤ maxWarmups) :
    (i * 1000 + 1).toNat = i.toNat * 1000 + 1 := by
  rw [maxWarmups] at hi
  rw [UInt32.toNat_add, UInt32.toNat_mul]
  simp only [UInt32.reduceToNat]
  omega

theorem toNat_add_of_lt {n : UInt32} (h : i.toNat + n.toNat < UInt32.size) :
    (i + n).toNat = i.toNat + n.toNat := by
  rw [UInt32.toNat_add]
  exact Nat.mod_eq_of_lt h

theorem add_lt_size (hw : w.toNat ≤ maxWarmups) {n : Nat} (hn : n < 8) :
    w.toNat + n < UInt32.size := by
  rw [maxWarmups] at hw
  rw [UInt32.size]
  omega

theorem toNat_later (hi : i.toNat ≤ maxWarmups) {n : UInt32} (hn : n.toNat < 8) :
    (i + n).toNat = i.toNat + n.toNat :=
  toNat_add_of_lt (add_lt_size hi hn)

theorem toNat_removed (hw : w.toNat + 4 < UInt32.size) (hi : i.toNat < w.toNat) :
    (w - i + 4).toNat = w.toNat - i.toNat + 4 := by
  have hsub : (w - i).toNat = w.toNat - i.toNat := UInt32.toNat_sub_of_le _ _ (Nat.le_of_lt hi)
  have hlt : (w - i).toNat + (4 : UInt32).toNat < UInt32.size := by
    simp only [hsub, UInt32.reduceToNat]
    omega
  rw [toNat_add_of_lt hlt, hsub]
  rfl

theorem ne_zero_of_toNat_eq {n : Nat} (h : i.toNat = n + 1) : i ≠ 0 := by
  rintro rfl
  cases h

end

theorem map_builtId_timedBenchmarks (shortTimeout : Duration) {w : UInt32}
    (hw : w.toNat + 4 < UInt32.size) :
    (timedBenchmarks shortTimeout w).map builtId = timedIds.map some := by
  have hselected : BuildsAll (((List.range w.toNat).map UInt32.ofNat ++ [w]).map
      fun i => clickPath (labelLink (i + 1))) := by
    refine buildsAll_map.mpr fun i hi => builds_clickPath.mpr (reads_labelLink ?_)
    have hle : i.toNat ≤ w.toNat := toNat_le_of_mem_rounds hi
    have hlt : i.toNat + (1 : UInt32).toNat < UInt32.size := by
      simp only [UInt32.reduceToNat]
      omega
    exact ne_zero_of_toNat_eq (toNat_add_of_lt hlt)
  have hremoved : BuildsAll (((List.range w.toNat).map UInt32.ofNat).flatMap
      fun i => removeCycle (w - i + 4) (w + 5)) := by
    refine buildsAll_flatMap.mpr fun i hi => buildsAll_removeCycle ?_
    exact ne_zero_of_toNat_eq (toNat_removed hw (mem_rounds.mp hi))
  simp [timedBenchmarks, timedIds, hselected, hremoved, -List.map_append, -List.map_map]

/-- The suite can be built, as long as its rows can be counted with 32 bits. -/
theorem exists_standard_of_lt {options : RunOptions}
    (hw : options.warmupCount.toNat + 4 < UInt32.size) :
    ∃ timed : List Benchmark, standard options = .ok (timed ++ [startupBenchmark]) ∧
      timedBenchmarks options.shortTimeout options.warmupCount = timed.map .ok ∧
      timed.map (·.id) = timedIds := by
  obtain ⟨timed, htimed, hids⟩ :=
    exists_eq_map_of_builtId (map_builtId_timedBenchmarks options.shortTimeout hw)
  refine ⟨timed, ?_, htimed, hids⟩
  rw [standard, htimed, collect_map_ok]
  rfl

/-- The suite can be built. -/
theorem exists_standard {options : RunOptions} (hw : options.warmupCount.toNat ≤ maxWarmups) :
    ∃ timed : List Benchmark, standard options = .ok (timed ++ [startupBenchmark]) ∧
      timedBenchmarks options.shortTimeout options.warmupCount = timed.map .ok ∧
      timed.map (·.id) = timedIds :=
  exists_standard_of_lt (add_lt_size hw (by decide))

/-- There is no row with the number zero. -/
theorem not_reads_idCell_zero : ¬Reads (idCell 0) := by
  rintro ⟨p, hp⟩
  cases hp

/-- If the rows cannot be counted with 32 bits, a row to be deleted has the number zero. -/
theorem exists_round_eq_zero {w : UInt32} (hw : UInt32.size ≤ w.toNat + 4) :
    ∃ i : UInt32, i.toNat < w.toNat ∧ w - i + 4 = 0 := by
  refine ⟨w + 4, ?_, ?_⟩
  · have hlt := w.toNat_lt
    rw [UInt32.size] at hw
    rw [UInt32.toNat_add]
    simp only [UInt32.reduceToNat]
    omega
  · rw [← UInt32.toNat_inj, UInt32.toNat_add, UInt32.toNat_sub, UInt32.toNat_add]
    simp only [UInt32.reduceToNat]
    omega

/-- The suite can be built only if its rows can be counted with 32 bits. -/
theorem lt_of_standard {options : RunOptions} {suite : List Benchmark}
    (h : standard options = .ok suite) : options.warmupCount.toNat + 4 < UInt32.size := by
  by_contra hw
  obtain ⟨i, hi, hzero⟩ := exists_round_eq_zero (Nat.le_of_not_lt hw)
  obtain ⟨built, hcollect, -⟩ := bind_eq_ok_iff.mp h
  have hmem : timed "06_remove-one-1k" _ _ _ _ _ _ _ ∈
      timedBenchmarks options.shortTimeout options.warmupCount :=
    .tail _ (.tail _ (.tail _ (.tail _ (.tail _ (.head _)))))
  rw [eq_map_of_collect hcollect] at hmem
  obtain ⟨b, -, hb⟩ := List.mem_map.mp hmem
  obtain ⟨-, hinit, -⟩ := hooks_of_timed hb.symm
  have hwait : waitText (idCell 0) (decimal 0) ∈ b.initHook.map .ok := by
    rw [← hinit, ← hzero]
    refine List.mem_append_left _ (List.mem_append_right _ ?_)
    exact List.mem_flatMap.mpr ⟨i, mem_rounds.mpr hi, .head _⟩
  obtain ⟨step, -, hstep⟩ := List.mem_map.mp hwait
  exact not_reads_idCell_zero (builds_waitText.mp ⟨step, hstep.symm⟩)

end PaintBench.Suite
