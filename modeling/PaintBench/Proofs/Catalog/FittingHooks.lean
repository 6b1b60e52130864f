import PaintBench.Proofs.Catalog.Warmups
import PaintBench.Proofs.Page.FittingWaits
import PaintBench.Proofs.Page.PlainApp

/-!
# Hooks that fit the table app

The hooks of two benchmarks grow with the number of warm-ups. One replaces all rows again and
again and waits for the id that the first row has got by then. The other deletes rows, from the
bottom of a block of rows up, and waits until the next row has moved up.

Both count along with the table (`Table.renders`, `Table.shrink`), so that their waits fit it after
any number of rounds (`fits_rounds`), and with it every outside that is the table app
(`waits_fit_the_table_app`).
-/

namespace PaintBench

/-! ## Tables after some rounds -/

namespace Table

/-- The table after the button was clicked some times. -/
def renders (count : Nat) : Nat → Table
  | 0 => fresh
  | n + 1 => (renders count n).render count

/-- The table after some rows were deleted, the `last` one first and then always the one above. -/
def shrink (t : Table) (last : Nat) : Nat → Table
  | 0 => t
  | n + 1 => (shrink t last n).remove (last - n)

variable {count last n row id : Nat}

theorem nextId_renders : (renders count n).nextId = n * count + 1 := by
  induction n with
  | zero => rw [Nat.zero_mul]; rfl
  | succ n ih =>
    rw [renders, render, ih, Nat.succ_mul]
    exact Nat.add_right_comm _ _ _

/-- The ids in the table have been used up. -/
theorem lt_of_idAt_renders (h : (renders count n).idAt row = some id) : id < n * count + 1 := by
  cases n with
  | zero => cases row <;> cases h
  | succ n =>
    rw [renders, idAt_render, nextId_renders] at h
    split at h
    · cases h
      rw [Nat.succ_mul]
      omega
    · cases h

theorem idAt_renders_one (hcount : 0 < count) :
    (renders count (n + 1)).idAt 1 = some (n * count + 1) := by
  rw [renders, idAt_render, if_pos ⟨Nat.le_refl 1, hcount⟩, nextId_renders]

theorem idAt_render_fresh (hpos : 0 < row) (hrow : row ≤ count) :
    (fresh.render count).idAt row = some row := by
  rw [idAt_render, if_pos ⟨hpos, hrow⟩, fresh, Nat.add_sub_cancel' hpos]

/-- The rows above the deleted ones are as they were, and those below have moved up. -/
theorem idAt_shrink {t : Table} (hn : n < last) : (t.shrink last n).idAt row =
    if row ≤ last - n then t.idAt row else t.idAt (row + n) := by
  induction n generalizing row with
  | zero => simp [shrink]
  | succ n ih =>
    rw [shrink, idAt_remove _ (by omega), ih (by omega), ih (by omega)]
    by_cases habove : row ≤ last - (n + 1)
    · rw [if_pos (by omega), if_pos (by omega), if_pos habove]
    · rw [if_neg (by omega), if_neg (by omega), if_neg habove, Nat.add_right_comm, Nat.add_assoc]

/-- The table with some rows deleted, and four rows left above them. -/
def gap (count n : Nat) : Table :=
  (fresh.render count).shrink (n + 4) n

theorem idAt_gap_above (hpos : 0 < row) (hrow : row ≤ 4) (hcount : 4 ≤ count) :
    (gap count n).idAt row = some row := by
  rw [gap, idAt_shrink (by omega), if_pos (by omega), idAt_render_fresh hpos (by omega)]

theorem idAt_gap_below (hrow : 4 < row) (hcount : n + row ≤ count) :
    (gap count n).idAt row = some (n + row) := by
  rw [gap, idAt_shrink (by omega), if_neg (by omega), Nat.add_comm row n,
    idAt_render_fresh (by omega) hcount]

end Table

namespace Suite

open Segment (parts readParts)

variable {count : Nat} {t mid t' : Table} {n : Nat} {place : Table.Place}

/-! ## Paths -/

/-- A path reads, and leads to a place of the app. -/
def LeadsTo (path : String) (place : Table.Place) : Prop :=
  ∃ p : ElementPath, ElementPath.ofText path = .ok p ∧ p.LeadsTo place

theorem leadsTo_of_readParts {path : String} {segments : List Segment}
    (h : readParts (parts path.toList) = .ok segments) (hne : parts path.toList ≠ [])
    (hplace : Table.Place.root.Leads segments place) : LeadsTo path place := by
  have hread : Segment.readAll path.toList = .ok segments := by
    rw [Segment.readAll_eq]
    split
    · next hnil => exact absurd hnil hne
    · exact h
  refine ⟨⟨path, segments, hread⟩, ?_, hplace⟩
  rw [ElementPath.ofText, ElementPath.parse_text ⟨path, segments, hread⟩]
  rfl

section
variable {row : UInt32} (hrow : row ≠ 0)
include hrow

theorem readParts_rowPath :
    readParts (parts (rowPath row).toList) = .ok [⟨"tbody", 1⟩, ⟨"tr", row.toNat⟩] := by
  rw [toList_rowPath, Segment.parts_append]
  have hbody : readParts (parts "//tbody".toList) = .ok [⟨"tbody", 1⟩] := rfl
  exact Segment.readParts_append hbody (readParts_row hrow)

theorem leadsTo_rowPath : LeadsTo (rowPath row) (.row row.toNat) :=
  leadsTo_of_readParts (readParts_rowPath hrow) (parts_rowPath_ne_nil row)
    (.cons .rows (.cons (.row _) (.nil _)))

theorem leadsTo_below {tail : String} {s : List Char} (htail : tail.toList = '/' :: s)
    {segments : List Segment} (hs : readParts (parts s) = .ok segments)
    (hplace : (Table.Place.row row.toNat).Leads segments place) :
    LeadsTo (rowPath row ++ tail) place := by
  have hparts : parts (rowPath row ++ tail).toList = parts (rowPath row).toList ++ parts s := by
    rw [String.toList_append, htail, Segment.parts_append]
  refine leadsTo_of_readParts (hparts ▸ Segment.readParts_append (readParts_rowPath hrow) hs) ?_
    (.cons .rows (.cons (.row _) hplace))
  rw [hparts]
  exact List.append_ne_nil_of_left_ne_nil (parts_rowPath_ne_nil row) _

theorem leadsTo_idCell : LeadsTo (idCell row) (.idCell row.toNat) :=
  leadsTo_below hrow (s := "td[1]".toList) rfl rfl (.cons (.idCell _) (.nil _))

theorem leadsTo_labelLink : LeadsTo (labelLink row) (.label row.toNat) :=
  leadsTo_below hrow (s := "td[2]/a".toList) rfl rfl
    (.cons (.labelCell _) (.cons (.label _) (.nil _)))

theorem leadsTo_removeIcon : LeadsTo (removeIcon row) (.removeIcon row.toNat) :=
  leadsTo_below hrow (s := "td[3]/a/span[1]".toList) rfl rfl
    (.cons (.removeCell _) (.cons (.removeLink _) (.cons (.removeIcon _) (.nil _))))

end

/-! ## Hooks in the making -/

theorem map_ok_injective : Function.Injective (List.map (.ok : Step → Build Step)) :=
  List.map_injective_iff.mpr fun _ _ => Except.ok.inj

/-- Some steps can be built, and their waits fit. -/
def Fits (count : Nat) (t : Table) (steps : List (Build Step)) (t' : Table) : Prop :=
  ∃ hook : List Step, steps = hook.map .ok ∧ t.Fits count hook t'

namespace Fits

variable {l l' : List (Build Step)}

theorem append (h : Fits count t l mid) (h' : Fits count mid l' t') :
    Fits count t (l ++ l') t' := by
  obtain ⟨hook, rfl, hfits⟩ := h
  obtain ⟨hook', rfl, hfits'⟩ := h'
  exact ⟨hook ++ hook', List.map_append.symm, hfits.append hfits'⟩

/-- Steps that can be built are one hook only. -/
theorem of_map_ok {hook : List Step} (h : Fits count t (hook.map .ok) t') :
    t.Fits count hook t' := by
  obtain ⟨hook', heq, hfits⟩ := h
  rwa [map_ok_injective heq]

/-- If the waits of every round fit the table that the rounds before it leave, those of all rounds
fit. -/
theorem rounds {w : UInt32} {f : UInt32 → List (Build Step)} (tables : Nat → Table)
    (h : ∀ i : UInt32, i.toNat < w.toNat →
      Fits count (tables i.toNat) (f i) (tables (i.toNat + 1))) :
    Fits count (tables 0) (((List.range w.toNat).map UInt32.ofNat).flatMap f) (tables w.toNat) := by
  suffices hupTo : ∀ n ≤ w.toNat,
      Fits count (tables 0) (((List.range n).map UInt32.ofNat).flatMap f) (tables n) from
    hupTo w.toNat (Nat.le_refl _)
  intro n hn
  induction n with
  | zero => exact ⟨[], rfl, .nil _⟩
  | succ n ih =>
    have htoNat : (UInt32.ofNat n).toNat = n :=
      UInt32.toNat_ofNat_of_lt' (Nat.lt_trans hn w.toNat_lt)
    have hround := h (.ofNat n) (htoNat.symm ▸ hn)
    rw [htoNat] at hround
    rw [List.range_succ, List.map_append, List.flatMap_append]
    exact (ih (Nat.le_of_succ_le hn)).append (by simpa using hround)

theorem waitForRun (limit : Option Duration) : Fits count t [.ok (.waitForId "run" limit)] t :=
  ⟨[.waitForId "run" limit], rfl, .wait rfl (.waitForRun t limit) (.nil t)⟩

/-- A wait for the id that a row has. -/
theorem waitText {path : String} {row : Nat} {id : UInt32} (hpath : LeadsTo path (.idCell row))
    (hid : t.idAt row = some id.toNat) : Fits count t [Suite.waitText path (decimal id)] t := by
  obtain ⟨p, hp, hleads⟩ := hpath
  refine ⟨[.waitForText p (decimal id) none], ?_, ?_⟩
  · rw [Suite.waitText, hp]
    rfl
  · exact .wait rfl (.waitForText none hleads (Table.showsId_of_idAt hid)) (.nil t)

/-- A click after which a row has got a greater id, and a wait for that id. -/
theorem clickWaitText {click : Build Step} {step : Step} (hclick : click = .ok step)
    (hstep : t.Does count step mid) {path : String} {row : Nat} {id : UInt32}
    (hpath : LeadsTo path (.idCell row)) (hbefore : ∀ id', t.idAt row = some id' → id' < id.toNat)
    (hafter : mid.idAt row = some id.toNat) :
    Fits count t [click, Suite.waitText path (decimal id)] mid := by
  obtain ⟨p, hp, hleads⟩ := hpath
  refine ⟨[step, .waitForText p (decimal id) none], ?_, ?_⟩
  · rw [hclick, Suite.waitText, hp]
    rfl
  · exact .click rfl hstep (.waitForText none hleads (Table.showsId_of_idAt hafter))
      ⟨row, hleads, Table.showsId_of_lt hbefore⟩ (.nil mid)

/-- A click that deletes a row, and a wait for the id of the row that moves up. -/
theorem removeWaitText {row : UInt32} (hrow : row ≠ 0) {id id' : UInt32} (hlt : id < id')
    (hid : t.idAt row.toNat = some id.toNat) (hid' : t.idAt (row.toNat + 1) = some id'.toNat) :
    Fits count t [clickPath (removeIcon row), Suite.waitText (idCell row) (decimal id')]
      (t.remove row.toNat) := by
  obtain ⟨p, hp, hleads⟩ := leadsTo_removeIcon hrow
  have hclick : clickPath (removeIcon row) = .ok (.clickPath p) := by
    rw [clickPath, hp]
    rfl
  have hnonzero : row.toNat ≠ 0 := fun h => hrow (UInt32.toNat_inj.mp h)
  refine clickWaitText hclick (.clickRemove hleads ?_) (leadsTo_idCell hrow) ?_ ?_
  · rw [Table.has, hid]
    rfl
  · intro id'' h
    rw [hid] at h
    cases h
    exact UInt32.lt_iff_toNat_lt.mp hlt
  · rw [Table.idAt_remove _ hnonzero, if_neg (Nat.lt_irrefl _), hid']

end Fits

/-! ## Replacing rows -/

theorem fits_replace {w : UInt32} (hw : w.toNat ≤ maxWarmups) (limit : Option Duration) :
    Fits 1000 .fresh
      ((.ok (.waitForId "run" limit) :: ((List.range w.toNat).map UInt32.ofNat).flatMap fun i =>
          [.ok (.clickId "run"), waitText (idCell 1) (decimal (i * 1000 + 1))]) ++
        [.ok (.clickId "run"), waitText (idCell 1) (decimal (w * 1000 + 1))])
      (.renders 1000 (w.toNat + 1)) := by
  have hround (i : UInt32) (hi : i.toNat ≤ w.toNat) : Fits 1000 (.renders 1000 i.toNat)
      [.ok (.clickId "run"), waitText (idCell 1) (decimal (i * 1000 + 1))]
      (.renders 1000 (i.toNat + 1)) := by
    have hid : (i * 1000 + 1).toNat = i.toNat * 1000 + 1 :=
      toNat_thousandth (Nat.le_trans hi hw)
    refine .clickWaitText rfl (.clickRun _) (leadsTo_idCell (by decide : (1 : UInt32) ≠ 0)) ?_ ?_
    · exact fun id h => hid ▸ Table.lt_of_idAt_renders h
    · exact hid ▸ Table.idAt_renders_one (by decide)
  have hrounds := Fits.rounds (.renders 1000) fun i hi => hround i (Nat.le_of_lt hi)
  exact ((Fits.waitForRun limit).append hrounds).append (hround w (Nat.le_refl _))

/-! ## Deleting rows -/

theorem fits_thousandRows (hcount : 0 < count) (limit : Option Duration) :
    Fits count t (thousandRows (.waitForId · limit) (labelLink 1)) (t.render count) := by
  obtain ⟨p, hp, hleads⟩ := leadsTo_labelLink (by decide : (1 : UInt32) ≠ 0)
  refine ⟨[.waitForId "run" limit, .clickId "run", .waitForPath p none], ?_, ?_⟩
  · rw [thousandRows, waitPath, hp]
    rfl
  · have hhas : (t.render count).has (.label 1) := by
      rw [Table.has, Table.idAt_render, if_pos ⟨Nat.le_refl 1, hcount⟩]
      rfl
    exact .wait rfl (.waitForRun t limit)
      (.click rfl (.clickRun t) (.waitForPath none hleads hhas) trivial (.nil _))

/-- Right above the deleted rows is the row to be deleted next, and right below them is always the
same one. -/
theorem fits_removeCycle {w i : UInt32} (hw : w.toNat + 4 < UInt32.size) (hi : i.toNat < w.toNat)
    {nextId : UInt32} (hnext : nextId.toNat = w.toNat + 5) (hcount : w.toNat + 5 ≤ count) :
    Fits count ((Table.fresh.render count).shrink (w.toNat + 4) i.toNat)
      (removeCycle (w - i + 4) nextId)
      ((Table.fresh.render count).shrink (w.toNat + 4) (i.toNat + 1)) := by
  have hrow : (w - i + 4).toNat = w.toNat + 4 - i.toNat := by
    rw [toNat_removed hw hi]
    omega
  have hne : w - i + 4 ≠ 0 := ne_zero_of_toNat_eq (toNat_removed hw hi)
  have hid : ((Table.fresh.render count).shrink (w.toNat + 4) i.toNat).idAt (w - i + 4).toNat =
      some (w - i + 4).toNat := by
    rw [hrow, Table.idAt_shrink (by omega), if_pos (Nat.le_refl _),
      Table.idAt_render_fresh (by omega) (by omega)]
  have hid' : ((Table.fresh.render count).shrink (w.toNat + 4) i.toNat).idAt
      ((w - i + 4).toNat + 1) = some nextId.toNat := by
    have hsum : w.toNat + 4 - i.toNat + 1 + i.toNat = w.toNat + 5 := by omega
    rw [hrow, hnext, Table.idAt_shrink (by omega), if_neg (by omega), hsum,
      Table.idAt_render_fresh (by omega) hcount]
  have hlt : w - i + 4 < nextId := by
    rw [UInt32.lt_iff_toNat_lt, hrow, hnext]
    omega
  have hremove : Fits count _ _ (((Table.fresh.render count).shrink (w.toNat + 4) i.toNat).remove
      (w - i + 4).toNat) := Fits.removeWaitText hne hlt hid hid'
  rw [hrow] at hremove
  exact (Fits.waitText (leadsTo_idCell hne) hid).append hremove

section
variable {w : UInt32} (hw : w.toNat + 7 < UInt32.size)
include hw

theorem toNat_nextId_zero : (w + 5).toNat = w.toNat + 5 :=
  toNat_add_of_lt (by simp only [UInt32.reduceToNat]; omega)

theorem toNat_nextId_one : (w + 5 + 1).toNat = w.toNat + 6 := by
  rw [UInt32.add_assoc]
  exact toNat_add_of_lt (n := 6) (by simp only [UInt32.reduceToNat]; omega)

theorem toNat_nextId_two : (w + 5 + 2).toNat = w.toNat + 7 := by
  rw [UInt32.add_assoc]
  exact toNat_add_of_lt (n := 7) (by simp only [UInt32.reduceToNat]; omega)

variable (hcount : w.toNat + 7 ≤ count)
include hcount

omit hw in
theorem idAt_gap_four : (Table.gap count w.toNat).idAt 4 = some (4 : UInt32).toNat :=
  Table.idAt_gap_above (by decide) (by decide) (by omega)

theorem idAt_gap_five : (Table.gap count w.toNat).idAt 5 = some (w + 5).toNat := by
  rw [toNat_nextId_zero hw, Table.idAt_gap_below (by decide) (by omega)]

/-- After the rounds, the init hook looks at the rows around the deleted ones and deletes one
more. -/
theorem fits_checks : Fits count (.gap count w.toNat)
    [waitText (idCell 5) (decimal (w + 5)), waitText (idCell 4) "4",
      waitText (idCell 6) (decimal (w + 5 + 1)), clickPath (removeIcon 6),
      waitText (idCell 6) (decimal (w + 5 + 2))] ((Table.gap count w.toNat).remove 6) := by
  have hsix : (Table.gap count w.toNat).idAt 6 = some (w + 5 + 1).toNat := by
    rw [toNat_nextId_one hw, Table.idAt_gap_below (by decide) (by omega)]
  have hseven : (Table.gap count w.toNat).idAt 7 = some (w + 5 + 2).toNat := by
    rw [toNat_nextId_two hw, Table.idAt_gap_below (by decide) hcount]
  have hlt : w + 5 + 1 < w + 5 + 2 := by
    rw [UInt32.lt_iff_toNat_lt, toNat_nextId_one hw, toNat_nextId_two hw]
    exact Nat.lt_succ_self _
  have hne : (6 : UInt32) ≠ 0 := by decide
  have hwaitFive : Fits count (.gap count w.toNat) [waitText (idCell 5) (decimal (w + 5))]
      (.gap count w.toNat) :=
    Fits.waitText (leadsTo_idCell (by decide)) (idAt_gap_five hw hcount)
  have hwaitFour : Fits count (.gap count w.toNat) [waitText (idCell 4) (decimal 4)]
      (.gap count w.toNat) :=
    Fits.waitText (leadsTo_idCell (by decide)) (idAt_gap_four hcount)
  have hwaitSix : Fits count (.gap count w.toNat) [waitText (idCell 6) (decimal (w + 5 + 1))]
      (.gap count w.toNat) :=
    Fits.waitText (leadsTo_idCell hne) hsix
  exact hwaitFive.append (hwaitFour.append (hwaitSix.append
    (Fits.removeWaitText hne hlt hsix hseven)))

/-- The run hook deletes the last row above the others. -/
theorem fits_removeFourth : Fits count ((Table.gap count w.toNat).remove 6)
    [clickPath (removeIcon 4), waitText (idCell 4) (decimal (w + 5))]
    (((Table.gap count w.toNat).remove 6).remove 4) := by
  have hlt : (4 : UInt32) < w + 5 := by
    rw [UInt32.lt_iff_toNat_lt, toNat_nextId_zero hw]
    exact Nat.lt_of_lt_of_le (by decide) (Nat.le_add_left 5 _)
  refine Fits.removeWaitText (by decide : (4 : UInt32) ≠ 0) hlt ?_ ?_
  · exact (Table.idAt_remove _ (by decide) 4).trans (idAt_gap_four hcount)
  · exact (Table.idAt_remove _ (by decide) 5).trans (idAt_gap_five hw hcount)

theorem fits_remove (limit : Option Duration) : Fits count .fresh
    ((thousandRows (.waitForId · limit) (labelLink 1) ++
      (((List.range w.toNat).map UInt32.ofNat).flatMap fun i =>
        removeCycle (w - i + 4) (w + 5)) ++
      [waitText (idCell 5) (decimal (w + 5)), waitText (idCell 4) "4",
        waitText (idCell 6) (decimal (w + 5 + 1)), clickPath (removeIcon 6),
        waitText (idCell 6) (decimal (w + 5 + 2))]) ++
      [clickPath (removeIcon 4), waitText (idCell 4) (decimal (w + 5))])
    (((Table.gap count w.toNat).remove 6).remove 4) := by
  have hrounds : Fits count (Table.fresh.render count) _ (.gap count w.toNat) :=
    Fits.rounds ((Table.fresh.render count).shrink (w.toNat + 4)) fun i hi =>
      fits_removeCycle (by omega) hi (toNat_nextId_zero hw) (by omega)
  exact (((fits_thousandRows (by omega) limit).append hrounds).append
    (fits_checks hw hcount)).append (fits_removeFourth hw hcount)

end

/-! ## Benchmarks -/

section
variable {σ : Type} {d : Dom} (app : TableApp σ d) {terms : Terms σ} {s : Situation σ}
  (options : RunOptions)

/-- The suite has a benchmark of an id, and the waits of its init hook and run hook fit, one hook
after the other. -/
def WaitsFitIn (options : RunOptions) (id : String) (d : Dom) (terms : Terms σ)
    (s : Situation σ) : Prop :=
  ∃ suite, standard options = .ok suite ∧ id ∈ suite.map (·.id) ∧
    ∀ b ∈ suite, b.id = id → d.WaitsFit terms s (b.initHook ++ b.runHook)

variable (hworld : terms.world = app.world) (hallows : Run.Terms.allows terms s.now)
  (hpatience : 0 < terms.patience) (hfresh : app.Shows s.outside .fresh)
include hworld hallows hpatience hfresh

theorem waitsFitIn_of_fits (hw : options.warmupCount.toNat + 4 < UInt32.size)
    {id label description : String} {kind : BenchmarkKind} {throttle : Option Float}
    {init run after : List (Build Step)} (hid : id ∈ timedIds) (hstartup : id ≠ "30_startup")
    (hmem : timed id label description kind throttle init run after ∈
      timedBenchmarks options.shortTimeout options.warmupCount)
    (hfits : Fits app.count .fresh (init ++ run) t') : WaitsFitIn options id d terms s := by
  obtain ⟨built, hstandard, hbuilt, hids⟩ := exists_standard_of_lt hw
  refine ⟨_, hstandard, ?_, fun b hb hbid => ?_⟩
  · rw [List.map_append, hids]
    exact List.mem_append_left _ hid
  · obtain ⟨hinit, hrun⟩ := hooks_of_mem hbuilt hids hmem hb hbid hstartup
    rw [hinit, hrun, ← List.map_append] at hfits
    exact app.waitsFit hworld hallows hpatience hfresh hfits.of_map_ok

/-- The hooks that replace and delete rows fit the table app for every number of warm-ups. The app
renders a thousand rows where all rows are replaced, and has at least seven rows more than there
are warm-ups where rows are deleted. Ids and rows are counted with 32 bits. -/
theorem hooks_fit_the_table_app :
    (app.count = 1000 → options.warmupCount.toNat * 1000 + 1 < UInt32.size →
      WaitsFitIn options "02_replace1k" d terms s) ∧
    (options.warmupCount.toNat + 7 ≤ app.count → options.warmupCount.toNat + 7 < UInt32.size →
      WaitsFitIn options "06_remove-one-1k" d terms s) := by
  constructor
  · intro hcount hw
    rw [UInt32.size] at hw
    have hfits := fits_replace (w := options.warmupCount) (by rw [maxWarmups]; omega)
      (some options.shortTimeout)
    have hsize : options.warmupCount.toNat + 4 < UInt32.size := by rw [UInt32.size]; omega
    rw [← hcount] at hfits
    exact waitsFitIn_of_fits app options hworld hallows hpatience hfresh hsize
      (by decide) (by decide) (.tail _ (.head _)) hfits
  · intro hcount hw
    have hfits := fits_remove hw hcount (some options.shortTimeout)
    have hsize : options.warmupCount.toNat + 4 < UInt32.size := by omega
    exact waitsFitIn_of_fits app options hworld hallows hpatience hfresh hsize
      (by decide) (by decide) (.tail _ (.tail _ (.tail _ (.tail _ (.tail _ (.head _)))))) hfits

end

/-- The hooks with five warm-ups, at a table of a thousand rows. -/
theorem hooks_fit_a_plain_app :
    let d : Dom := ⟨0, none, .ofMilliseconds 300, .ofMilliseconds 20⟩
    let app := TableApp.plain d 1000
    let options : RunOptions := { RunOptions.standard with warmupCount := 5 }
    let terms : Terms Table := ⟨app.world, none, 1⟩
    let s : Situation Table := .start .fresh (.empty [])
    (Run.Terms.allows terms s.now ∧ 0 < terms.patience ∧ app.Shows s.outside .fresh) ∧
      WaitsFitIn options "02_replace1k" d terms s ∧
      WaitsFitIn options "06_remove-one-1k" d terms s := by
  intro d app options terms s
  have hfit := hooks_fit_the_table_app app options (rfl : terms.world = app.world)
    (rfl : Run.Terms.allows terms s.now) (by decide) rfl
  exact ⟨⟨rfl, by decide, rfl⟩, hfit.1 rfl (by decide), hfit.2 (by decide) (by decide)⟩

end Suite

end PaintBench
