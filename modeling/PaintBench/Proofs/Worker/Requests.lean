import PaintBench.Batch.Batch
import PaintBench.Proofs.Catalog.Catalog
import PaintBench.Proofs.Catalog.Warmups
import PaintBench.Proofs.Worker.Files
import PaintBench.Proofs.Worker.Settles

/-!
# Requests

A batch and its worker each make a catalog from the options of the run and the custom benchmarks.
The id in a request leads the worker to the benchmark that the batch selected
(`target_of_mem_select`). Only an unknown id makes a request fail (`failure_iff`), and a request
for a known one is completed in every outside that answers (`exists_completed`).
-/

namespace PaintBench.Worker

variable {σ : Type}

/-- The benchmark that a batch selects is the one that the worker runs. -/
theorem target_of_mem_select {custom : List TimedBenchmark} {options : RunOptions}
    {catalog : Catalog} (hcatalog : Catalog.withCustom options custom = .ok catalog)
    (hnodup : (catalog.benchmarks.map (·.id)).Nodup) {filters : List String} {b : Benchmark}
    (hb : b ∈ catalog.select filters) (i : Implementation) :
    target custom ⟨i, b.id, options⟩ = some b := by
  rw [target, hcatalog]
  exact Catalog.get_id hnodup (List.mem_of_mem_filter hb)

theorem exists_completed_of_respond (result : Except RunError Unit × List String) :
    ∃ error warnings, respond result = .completed error warnings := by
  obtain ⟨_ | _, warnings⟩ := result
  · exact ⟨_, warnings, rfl⟩
  · exact ⟨none, warnings, rfl⟩

/-- A request fails exactly if it is for no known benchmark. -/
theorem failure_iff (custom : List TimedBenchmark) (q : WorkerRequest) (terms : Terms σ)
    (s : Situation σ) :
    (∃ text, ((execute custom q).outcome terms s).1 = .ok (.failure text)) ↔
      target custom q = none := by
  constructor
  · rintro ⟨text, hfailure⟩
    by_contra hknown
    obtain ⟨b, hb⟩ := Option.ne_none_iff_exists'.mp hknown
    rw [outcome_of_target hb] at hfailure
    rcases hrun : (runBenchmark q.implementation b q.options terms s).1 with halt | result
    · rw [hrun] at hfailure
      cases hfailure
    · obtain ⟨error, warnings, hcompleted⟩ := exists_completed_of_respond result
      rw [hrun] at hfailure
      have heq : respond result = .failure text := Except.ok.inj hfailure
      rw [hcompleted] at heq
      cases heq
  · intro hunknown
    obtain ⟨text, hexecute, -⟩ | ⟨b, hsome, -⟩ := execute_eq (σ := σ) custom q
    · exact ⟨text, by rw [hexecute]; rfl⟩
    · rw [hunknown] at hsome
      cases hsome

/-- A request for a known benchmark is completed, if the outside answers. -/
theorem exists_completed {custom : List TimedBenchmark} {q : WorkerRequest} {b : Benchmark}
    (h : target custom q = some b) {w : World σ} (hw : w.Responsive) (s : Situation σ) :
    ∃ enough, ∀ patience ≥ enough, ∃ error warnings,
      ((execute custom q).outcome ⟨w, none, patience⟩ s).1 = .ok (.completed error warnings) := by
  obtain ⟨enough, hreturns⟩ := (settles_runBenchmark q.implementation b q.options hw).returns s
  refine ⟨enough, fun patience hpatience => ?_⟩
  obtain ⟨result, s', hrun⟩ := hreturns patience hpatience
  obtain ⟨error, warnings, hcompleted⟩ := exists_completed_of_respond result
  exact ⟨error, warnings, by rw [outcome_of_target h, hrun, ← hcompleted]; rfl⟩

/-- The requests of a batch are for the benchmarks that it selected. -/
theorem map_target_requests {custom : List TimedBenchmark} {options : RunOptions}
    {catalog : Catalog} (hcatalog : Catalog.withCustom options custom = .ok catalog)
    (hnodup : (catalog.benchmarks.map (·.id)).Nodup) (implementations : List Implementation)
    (filters : List String) :
    (Batch.requests implementations (catalog.select filters) options).map (target custom) =
      implementations.flatMap fun _ => (catalog.select filters).map some := by
  rw [Batch.requests, List.map_flatMap]
  refine List.flatMap_congr fun i _ => ?_
  rw [List.map_map]
  exact List.map_congr_left fun b hb => target_of_mem_select hcatalog hnodup hb i

/-- A batch and its worker mean the same benchmark. For any number of warm-ups that 32 bits can
count rows for, both have the catalog of the suite and the custom benchmarks, and the id of a
selected benchmark leads to that benchmark. A request fails exactly if its id is neither in the
suite nor custom. Any other request is completed, whatever the sessions and the audit tool
answer. -/
theorem requests_mean_their_benchmarks (custom : List TimedBenchmark) (options : RunOptions)
    (hwarmups : options.warmupCount.toNat ≤ Suite.maxWarmups) :
    (∃ suite, Suite.standard options = .ok suite ∧ suite.map (·.id) = Suite.ids ∧
      Suite.CountsWarmups options.warmupCount.toNat suite) ∧
    (∃ catalog, Catalog.withCustom options custom = .ok catalog ∧
      ∀ filters,
        (∀ implementations,
          (Batch.requests implementations (catalog.select filters) options).map (target custom) =
            implementations.flatMap fun _ => (catalog.select filters).map some) ∧
        ∀ i, ∀ b ∈ catalog.select filters,
          (execute custom ⟨i, b.id, options⟩ : Run σ WorkerResponse) =
            runBenchmark i b options >>= fun result => pure (respond result)) ∧
    ∀ i id,
      let run := (execute custom ⟨i, id, options⟩ : Run σ WorkerResponse)
      let known := id ∈ Suite.ids ∨ ∃ c ∈ custom, c.info.id = id
      (∀ terms s, (∃ text, (run.outcome terms s).1 = .ok (.failure text)) ↔ ¬known) ∧
      (known → ∀ w : World σ, w.Responsive → ∀ s, ∃ enough, ∀ patience ≥ enough,
        ∃ error warnings,
          (run.outcome ⟨w, none, patience⟩ s).1 = .ok (.completed error warnings)) := by
  obtain ⟨timed, hstandard, htimed, hids⟩ := Suite.exists_standard hwarmups
  obtain ⟨catalog, hcatalog, hnodup, hmem⟩ := Catalog.exists_withCustom hwarmups custom
  refine ⟨⟨_, hstandard, ?_, Suite.countsWarmups hwarmups htimed hids⟩,
    ⟨catalog, hcatalog, fun filters => ⟨?_, fun i b hb => ?_⟩⟩, fun i id => ?_⟩
  · rw [List.map_append, hids]
    rfl
  · exact fun implementations => map_target_requests hcatalog hnodup implementations filters
  · exact execute_of_target (target_of_mem_select hcatalog hnodup hb i)
  · have hunknown : target custom ⟨i, id, options⟩ = none ↔
        ¬(id ∈ Suite.ids ∨ ∃ c ∈ custom, c.info.id = id) := by
      rw [← hmem, target, hcatalog]
      exact Catalog.get_eq_none_iff
    refine ⟨fun terms s => (failure_iff custom _ terms s).trans hunknown, ?_⟩
    intro hknown w hw s
    obtain ⟨b, hb⟩ := Option.ne_none_iff_exists'.mp fun hnone => hunknown.mp hnone hknown
    exact exists_completed hb hw s

/-! ### An example -/

/-- Sessions that hand out their records once answer as a worker needs it. -/
theorem responsive_steady (records : List String) (closing : Except SessionError Unit) :
    (World.steady records closing).Responsive where
  answers _ fresh := ⟨0, fresh, rfl⟩
  runsOut session time fresh := by
    have hempty (time : Nat) : (World.steady records closing).RunsOut session time false :=
      .drain rfl rfl fun batch hbatch hne => absurd (Except.ok.inj hbatch).symm hne
    exact .drain rfl rfl fun batch _ _ => hempty _
  reports _ _ _ _ _ h := by cases h

/-- Options with as many warm-ups as 32 bits can count rows for. -/
def tirelessOptions : RunOptions :=
  { RunOptions.standard with warmupCount := 4294967 }

/-- All these warm-ups are made, and a request for them is completed. -/
theorem requests_mean_their_benchmarks_tireless :
    let run := (execute [idleHeap] ⟨idleRequest.implementation, "02_replace1k", tirelessOptions⟩ :
      Run Bool WorkerResponse)
    tirelessOptions.warmupCount.toNat ≤ Suite.maxWarmups ∧
    (∃ suite, Suite.standard tirelessOptions = .ok suite ∧ Suite.CountsWarmups 4294967 suite) ∧
    (World.steady heapLog (.ok ())).Responsive ∧
    ∃ enough, ∀ patience ≥ enough, ∃ error warnings,
      (run.outcome ⟨.steady heapLog (.ok ()), none, patience⟩ (.start true (.empty []))).1 =
        .ok (.completed error warnings) := by
  have hwarmups : tirelessOptions.warmupCount.toNat ≤ Suite.maxWarmups := by decide
  have hw := responsive_steady heapLog (.ok ())
  obtain ⟨⟨suite, hsuite, -, hcounts⟩, -, hrequests⟩ :=
    requests_mean_their_benchmarks (σ := Bool) [idleHeap] tirelessOptions hwarmups
  have hcompleted := (hrequests idleRequest.implementation "02_replace1k").2 (Or.inl (by decide))
  exact ⟨hwarmups, ⟨suite, hsuite, hcounts⟩, hw, hcompleted _ hw _⟩

end PaintBench.Worker
