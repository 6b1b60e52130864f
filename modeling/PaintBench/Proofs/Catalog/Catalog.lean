import Mathlib.Data.List.Nodup
import PaintBench.Catalog.Catalog
import PaintBench.Proofs.Catalog.Suite

/-!
# Catalogs know their benchmarks by id

Custom benchmarks leave no two benchmarks with one id (`exists_withCustom`), since one with a
known id takes the place of the other (`map_id_put`). So the id of a benchmark of a catalog finds
that benchmark (`get_id`).
-/

namespace PaintBench.Catalog

/-- A benchmark is put where its id is, or at the end. -/
theorem map_id_put (b : Benchmark) (known : List Benchmark) :
    (put b known).map (·.id) =
      if b.id ∈ known.map (·.id) then known.map (·.id) else known.map (·.id) ++ [b.id] := by
  induction known with
  | nil => rfl
  | cons c rest ih =>
    rw [put]
    by_cases hid : c.id = b.id
    · simp [hid]
    · have hid' : b.id ≠ c.id := Ne.symm hid
      rw [if_neg hid, List.map_cons, ih, List.map_cons]
      simp only [List.mem_cons, hid', false_or]
      split <;> rfl

theorem nodup_map_id_put {b : Benchmark} {known : List Benchmark}
    (h : (known.map (·.id)).Nodup) : ((put b known).map (·.id)).Nodup := by
  rw [map_id_put]
  split
  · exact h
  · next hmem => exact List.concat_eq_append ▸ h.concat hmem

theorem mem_map_id_put {b : Benchmark} {known : List Benchmark} {id : String} :
    id ∈ (put b known).map (·.id) ↔ id ∈ known.map (·.id) ∨ b.id = id := by
  rw [map_id_put]
  split
  · next hmem =>
    refine ⟨Or.inl, fun h => h.elim (fun h => h) ?_⟩
    rintro rfl
    exact hmem
  · rw [List.mem_append, List.mem_singleton, eq_comm]

/-- A catalog knows the benchmarks it was made of, each under an id of its own. -/
theorem ids_foldl_put (custom : List TimedBenchmark) {known : List Benchmark}
    (h : (known.map (·.id)).Nodup) :
    let benchmarks := custom.foldl (fun known b => put (.timed b) known) known
    (benchmarks.map (·.id)).Nodup ∧
      ∀ id, id ∈ benchmarks.map (·.id) ↔
        id ∈ known.map (·.id) ∨ ∃ c ∈ custom, c.info.id = id := by
  induction custom generalizing known with
  | nil => exact ⟨h, fun id => ⟨Or.inl, fun h => h.elim (fun h => h) nofun⟩⟩
  | cons c custom ih =>
    obtain ⟨hnodup, hmem⟩ := ih (nodup_map_id_put h)
    refine ⟨hnodup, fun id => (hmem id).trans ?_⟩
    rw [mem_map_id_put, or_assoc, List.exists_mem_cons_iff]
    rfl

/-- The catalog of a run, whose benchmarks are the suite and the custom ones. -/
theorem exists_withCustom {options : RunOptions}
    (hw : options.warmupCount.toNat ≤ Suite.maxWarmups) (custom : List TimedBenchmark) :
    ∃ catalog, withCustom options custom = .ok catalog ∧
      (catalog.benchmarks.map (·.id)).Nodup ∧
      ∀ id, id ∈ catalog.benchmarks.map (·.id) ↔
        id ∈ Suite.ids ∨ ∃ c ∈ custom, c.info.id = id := by
  obtain ⟨timed, hstandard, -, hids⟩ := Suite.exists_standard hw
  have hknown : (timed ++ [Suite.startupBenchmark]).map (·.id) = Suite.ids := by
    rw [List.map_append, hids]
    rfl
  obtain ⟨hnodup, hmem⟩ := ids_foldl_put custom (hknown ▸ Suite.nodup_ids)
  refine ⟨_, ?_, hnodup, hknown ▸ hmem⟩
  rw [withCustom, hstandard]
  rfl

/-- The id of a benchmark of a catalog is answered with that benchmark. -/
theorem get_id {c : Catalog} (h : (c.benchmarks.map (·.id)).Nodup) {b : Benchmark}
    (hb : b ∈ c.benchmarks) : c.get b.id = some b := by
  obtain ⟨benchmarks⟩ := c
  induction benchmarks with
  | nil => cases hb
  | cons c rest ih =>
    rw [List.map_cons, List.nodup_cons] at h
    rcases List.mem_cons.mp hb with rfl | hb
    · exact List.find?_cons_of_pos (beq_self_eq_true _)
    · have hne : c.id ≠ b.id := fun heq => h.1 (heq ▸ List.mem_map_of_mem hb)
      exact (List.find?_cons_of_neg (by simpa using hne)).trans (ih h.2 hb)

theorem get_eq_none_iff {c : Catalog} {id : String} :
    c.get id = none ↔ id ∉ c.benchmarks.map (·.id) := by
  simp [get, List.find?_eq_none]

end PaintBench.Catalog
