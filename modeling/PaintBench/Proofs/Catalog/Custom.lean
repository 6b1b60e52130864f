import Mathlib.Data.List.Induction
import PaintBench.Proofs.Catalog.Catalog

/-!
# Custom benchmarks

A custom benchmark is found under its id from when it is put into a catalog until the next one of
that id is (`find?_put`), so the last one counts (`find?_foldl_put`). Its place is that of the first
benchmark with its id, and only an id that is new makes the catalog longer (`map_id_foldl_put`).

`custom_benchmarks_replace` is what this makes of the standard suite.
-/

namespace PaintBench.Catalog

/-- The last custom benchmark of an id. -/
def lastCustom (custom : List TimedBenchmark) (id : String) : Option TimedBenchmark :=
  (custom.filter (·.info.id = id)).getLast?

/-- The ids that custom benchmarks add to the known ones, in the order in which they come up
first. -/
def newIds (known : List String) (custom : List TimedBenchmark) : List String :=
  ((custom.map (·.info.id)).filter (· ∉ known)).eraseDups

/-- A benchmark that was put somewhere is found under its id; the others are found as before. -/
theorem find?_put (b : Benchmark) (known : List Benchmark) (id : String) :
    (put b known).find? (·.id == id) = if b.id = id then some b else known.find? (·.id == id) := by
  induction known with
  | nil => by_cases hid : b.id = id <;> simp [put, hid]
  | cons c rest ih =>
    rw [put]
    by_cases hplace : c.id = b.id
    · rw [if_pos hplace, List.find?_cons, List.find?_cons, hplace]
      by_cases hid : b.id = id
      · simp [hid]
      · simp [hid, beq_false_of_ne hid]
    · rw [if_neg hplace, List.find?_cons, List.find?_cons, ih]
      by_cases hid : b.id = id
      · simp [hid, beq_false_of_ne (hid ▸ hplace : c.id ≠ id)]
      · simp [hid]

/-- Of all benchmarks that are put under an id the last one is found. -/
theorem find?_foldl_put (custom : List TimedBenchmark) (known : List Benchmark) (id : String) :
    (custom.foldl (fun known b => put (.timed b) known) known).find? (·.id == id) =
      ((lastCustom custom id).map .timed).or (known.find? (·.id == id)) := by
  induction custom using List.reverseRecOn with
  | nil => rfl
  | append_singleton custom b ih =>
    have hb : (Benchmark.timed b).id = b.info.id := rfl
    rw [List.foldl_append, List.foldl_cons, List.foldl_nil, find?_put, ih, lastCustom, lastCustom,
      List.filter_append, hb]
    by_cases hid : b.info.id = id <;> simp [hid]

/-- Only new ids make a catalog longer, each once. -/
theorem map_id_foldl_put (custom : List TimedBenchmark) (known : List Benchmark) :
    (custom.foldl (fun known b => put (.timed b) known) known).map (·.id) =
      known.map (·.id) ++ newIds (known.map (·.id)) custom := by
  induction custom generalizing known with
  | nil => simp [newIds]
  | cons b custom ih =>
    have hb : (Benchmark.timed b).id = b.info.id := rfl
    rw [List.foldl_cons, ih, map_id_put, hb, newIds, newIds, List.map_cons]
    by_cases hmem : b.info.id ∈ known.map (·.id)
    · rw [if_pos hmem, List.filter_cons_of_neg (by simpa using hmem)]
    · -- not known from now on is what was not known before and is not this id
      have hknown : (custom.map (·.info.id)).filter (· ∉ known.map (·.id) ++ [b.info.id]) =
          ((custom.map (·.info.id)).filter (· ∉ known.map (·.id))).filter (!· == b.info.id) := by
        rw [List.filter_filter]
        refine List.filter_congr fun id _ => ?_
        rw [Bool.eq_iff_iff]
        simp [and_comm, not_or]
      rw [if_neg hmem, hknown, List.filter_cons_of_pos (by simpa using hmem), List.eraseDups_cons,
        List.append_assoc, List.singleton_append]

/-- Custom benchmarks take the places of the standard ones they replace, and the others come after
the suite in the order of their ids. No two benchmarks have one id, and under each id stands the
last benchmark that was given it. -/
theorem custom_benchmarks_replace {options : RunOptions} {standard : List Benchmark}
    (h : Suite.standard options = .ok standard) (custom : List TimedBenchmark) :
    ∃ catalog, withCustom options custom = .ok catalog ∧
      (catalog.benchmarks.map (·.id)).Nodup ∧
      catalog.benchmarks.map (·.id) =
        standard.map (·.id) ++ newIds (standard.map (·.id)) custom ∧
      ∀ id, catalog.get id =
        ((lastCustom custom id).map .timed).or (standard.find? (·.id == id)) := by
  obtain ⟨timed, hstandard, -, hids⟩ := Suite.exists_standard_of_lt (Suite.lt_of_standard h)
  obtain rfl : standard = timed ++ [Suite.startupBenchmark] := by
    rw [h] at hstandard
    exact Except.ok.inj hstandard
  have hnodup : ((timed ++ [Suite.startupBenchmark]).map (·.id)).Nodup := by
    rw [List.map_append, hids]
    exact Suite.nodup_ids
  refine ⟨⟨_⟩, ?_, (ids_foldl_put custom hnodup).1, map_id_foldl_put custom _,
    fun id => find?_foldl_put custom _ id⟩
  rw [withCustom, h]
  rfl

/-! ### An example -/

/-- A custom benchmark that does nothing. -/
def idle (id label : String) : TimedBenchmark :=
  ⟨⟨id, label, "", .cpu, none⟩, [], [], []⟩

/-- Of two benchmarks that replace the first one of the suite the later one stays, and a new one
comes after the suite. -/
theorem custom_benchmarks_replace_twice :
    let custom := [idle "01_run1k" "first", idle "90_new" "new", idle "01_run1k" "second"]
    ∃ standard, Suite.standard .standard = .ok standard ∧
      ∃ catalog, withCustom .standard custom = .ok catalog ∧
        catalog.benchmarks.map (·.id) = Suite.ids ++ ["90_new"] ∧
        catalog.get "01_run1k" = some (.timed (idle "01_run1k" "second")) := by
  intro custom
  have hwarmup : RunOptions.standard.warmupCount.toNat + 4 < UInt32.size := by decide
  obtain ⟨timed, hstandard, -, hids⟩ := Suite.exists_standard_of_lt hwarmup
  have hsuite : (timed ++ [Suite.startupBenchmark]).map (·.id) = Suite.ids := by
    rw [List.map_append, hids]
    rfl
  obtain ⟨catalog, hcatalog, -, hsequence, hget⟩ := custom_benchmarks_replace hstandard custom
  refine ⟨_, hstandard, catalog, hcatalog, ?_, (hget "01_run1k").trans ?_⟩
  · have hnew : newIds Suite.ids custom = ["90_new"] := by decide
    rw [hsequence, hsuite, hnew]
  · have hlast : lastCustom custom "01_run1k" = some (idle "01_run1k" "second") := rfl
    rw [hlast]
    rfl

end PaintBench.Catalog
