import PaintBench.Catalog.Benchmark

/-!
# The standard suite

Every implementation renders the same table app: buttons with the ids `run`, `runlots`,
`add`, `update`, `clear` and `swaprows`, and a table whose rows hold an id cell, a label
link and a remove icon. The suite measures what users do with it. The number of warm-up
interactions is an option.
-/

namespace PaintBench.Suite

/-- A suite in the making; a path that does not read ends it. -/
abbrev Build := Except RunError

/-- The path of a row. -/
def rowPath (row : UInt32) : String :=
  s!"//tbody/tr[{row.toNat}]"

/-- The path of the id cell of a row. -/
def idCell (row : UInt32) : String :=
  rowPath row ++ "/td[1]"

/-- The path of the label link of a row. -/
def labelLink (row : UInt32) : String :=
  rowPath row ++ "/td[2]/a"

/-- The path of the remove icon of a row. -/
def removeIcon (row : UInt32) : String :=
  rowPath row ++ "/td[3]/a/span[1]"

/-- The decimal text of a number. -/
def decimal (n : UInt32) : String :=
  toString n.toNat

/-- Click the element of a path. -/
def clickPath (path : String) : Build Step := do
  return .clickPath (← ElementPath.ofText path)

/-- Wait for the element of a path. -/
def waitPath (path : String) : Build Step := do
  return .waitForPath (← ElementPath.ofText path) none

/-- Wait until a path has no element. -/
def waitAbsent (path : String) : Build Step := do
  return .waitForPathAbsent (← ElementPath.ofText path) none

/-- Wait for a text in the element of a path. -/
def waitText (path text : String) : Build Step := do
  return .waitForText (← ElementPath.ofText path) text none

/-- Wait for a class of the element of a path. -/
def waitClass (path name : String) : Build Step := do
  return .waitForClass (← ElementPath.ofText path) name none

/-- Remember the text of the element of a path. -/
def capture (path name : String) : Build Step := do
  return .captureText (← ElementPath.ofText path) name

/-- Wait for a remembered text in the element of a path. -/
def waitCaptured (path name : String) : Build Step := do
  return .waitForCapturedText (← ElementPath.ofText path) name none

/-- A hook from its steps. -/
def steps : List (Build Step) → Build (List Step)
  | [] => .ok []
  | step :: rest => do return (← step) :: (← steps rest)

/-- A timed benchmark. -/
def timed (id label description : String) (kind : BenchmarkKind) (throttle : Option Float)
    (init run after : List (Build Step)) : Build Benchmark := do
  return .timed {
    info := ⟨id, label, description, kind, throttle⟩
    init := ← steps init
    run := ← steps run
    after := ← steps after }

/-- The mark that an update appends to a label, so many times. -/
def exclamations (n : Nat) : String :=
  String.join (List.replicate n " !!!")

/-- The name under which the swap benchmark remembers a text. -/
def secondRow : String := "second-row"

/-- Remember the label of the second row, swap it with the last but one, and wait until
that row shows it. -/
def swapCycle : List (Build Step) :=
  [capture (labelLink 2) secondRow, .ok (.clickId "swaprows"),
    waitCaptured (labelLink 999) secondRow]

/-- Remove a row and wait until the row in its place has the given id. -/
def removeCycle (row nextId : UInt32) : List (Build Step) :=
  [waitText (idCell row) (decimal row), clickPath (removeIcon row),
    waitText (idCell row) (decimal nextId)]

/-- Render a thousand rows. -/
def thousandRows (waitId : String → Step) (ready : String) : List (Build Step) :=
  [.ok (waitId "run"), .ok (.clickId "run"), waitPath ready]

/-- The timed benchmarks of the suite. -/
def timedBenchmarks (shortTimeout : Duration) (warmups : UInt32) : List (Build Benchmark) :=
  let waitId (id : String) : Step := .waitForId id (some shortTimeout)
  let click (id : String) : Build Step := .ok (.clickId id)
  let rounds := (List.range warmups.toNat).map UInt32.ofNat
  let warmupText := s!"({warmups.toNat} warmup runs)."
  let nextId := warmups + 5
  [timed "01_run1k" "create rows" "creating 1,000 rows" .cpu none
      [.ok (waitId "add")]
      [click "add", waitPath (labelLink 1000)] [],
    timed "02_replace1k" "replace all rows"
      ("updating all 1,000 rows " ++ warmupText) .cpu none
      (.ok (waitId "run") ::
        rounds.flatMap fun i => [click "run", waitText (idCell 1) (decimal (i * 1000 + 1))])
      [click "run", waitText (idCell 1) (decimal (warmups * 1000 + 1))] [],
    timed "03_update10th1k_x16" "partial update"
      "updating every 10th row for 1,000 rows (3 warmup runs). 16x CPU slowdown."
      .cpu (some 16)
      (thousandRows waitId (labelLink 1000) ++
        (List.range 3).flatMap fun i =>
          [click "update", waitText (labelLink 991) (exclamations (i + 1))])
      [click "update", waitText (labelLink 991) (exclamations 4)] [],
    timed "04_select1k" "select row"
      ("highlighting a selected row. " ++ warmupText ++ " 16x CPU slowdown.")
      .cpu (some 16)
      (thousandRows waitId (labelLink 1) ++
        (rounds ++ [warmups]).map fun i => clickPath (labelLink (i + 1)))
      [clickPath (labelLink 2), waitClass (rowPath 2) "danger"] [],
    timed "05_swap1k" "swap rows"
      ("swap 2 rows for table with 1,000 rows. " ++ warmupText ++ " 4x CPU slowdown.")
      .cpu (some 4)
      (thousandRows waitId (labelLink 1) ++
        (rounds ++ [warmups]).flatMap fun _ => swapCycle)
      swapCycle [],
    timed "06_remove-one-1k" "remove row"
      ("removing one row. " ++ warmupText) .cpu none
      (thousandRows waitId (labelLink 1) ++
        (rounds.flatMap fun i => removeCycle (warmups - i + 4) nextId) ++
        [waitText (idCell 5) (decimal nextId), waitText (idCell 4) "4",
          waitText (idCell 6) (decimal (nextId + 1)), clickPath (removeIcon 6),
          waitText (idCell 6) (decimal (nextId + 2))])
      [clickPath (removeIcon 4), waitText (idCell 4) (decimal nextId)] [],
    timed "07_create10k" "create many rows" "creating 10,000 rows" .cpu none
      [.ok (waitId "runlots")]
      [click "runlots", waitPath (labelLink 10000)] [],
    timed "08_create1k-after1k_x2" "append rows to large table"
      "appending 1,000 to a table of 1,000 rows. 2x CPU slowdown" .cpu (some 2)
      (thousandRows waitId (labelLink 1000))
      [click "add", waitPath (labelLink 1100)] [],
    timed "09_clear1k_x8" "clear rows"
      "clearing a table with 1,000 rows. 8x CPU slowdown" .cpu (some 8)
      (thousandRows waitId (labelLink 1000))
      [click "clear", waitAbsent (rowPath 1)] [],
    timed "21_ready-memory" "ready memory" "Memory usage after page load." .memory none
      [.ok (waitId "add")]
      [waitAbsent (rowPath 1)]
      [click "run", waitPath (labelLink 1)],
    timed "22_run-memory" "run memory" "Memory usage after adding 1000 rows." .memory none
      [.ok (waitId "add")]
      [click "run", waitPath (labelLink 1)] [],
    timed "23_update5-memory" "update every 10th row for 1k rows (5 cycles)"
      "Memory usage after clicking update every 10th row 5 times" .memory none
      [.ok (waitId "add")]
      (click "run" ::
        (List.range 5).flatMap fun i =>
          [click "update", waitText (labelLink 1) (exclamations i)]) [],
    timed "24_run5-memory" "replace 1k rows (5 cycles)"
      "Memory usage after clicking create 1000 rows 5 times" .memory none
      [.ok (waitId "add")]
      ((List.range 5).flatMap fun i =>
        [click "run", waitText (idCell 1000) (toString (1000 * (i + 1)))]) [],
    timed "25_run-clear-memory" "creating/clearing 1k rows (5 cycles)"
      "Memory usage after creating and clearing 1000 rows 5 times" .memory none
      [.ok (waitId "add")]
      ((List.range 5).flatMap fun i =>
        [click "run", waitText (idCell 1000) (toString (1000 * (i + 1))), click "clear",
          waitAbsent (idCell 1000)]) []]

/-- The startup audit. -/
def startupBenchmark : Benchmark :=
  .startup ⟨"30_startup", "startup time", "Time for loading, parsing and starting up",
    .startup, none⟩

/-- Every benchmark that can be built, if each can. -/
def collect : List (Build Benchmark) → Build (List Benchmark)
  | [] => .ok []
  | b :: rest => do return (← b) :: (← collect rest)

/-- The standard suite: the timed benchmarks, then the startup audit. -/
def standard (options : RunOptions) : Build (List Benchmark) := do
  let timed ← collect (timedBenchmarks options.shortTimeout options.warmupCount)
  return timed ++ [startupBenchmark]

end PaintBench.Suite
