import PaintBench.Catalog.Catalog
import PaintBench.Config
import PaintBench.Proofs.Catalog.Suite

/-!
# Shapes of benchmarks

A benchmark has a kind and a shape, and a worker goes by the kind alone. In the standard suite the
startup audit is the only benchmark of its kind (`Suite.kindFits_of_standard`). Custom benchmarks
are timed, so the kinds of a catalog fit the shapes when no custom benchmark is of the kind startup
(`Catalog.kindFits_of_withCustom`), which is what a configuration is checked for
(`Config.kind_ne_startup_of_ofText`).
-/

namespace PaintBench

namespace Benchmark

/-- A benchmark has the shape of the startup audit. -/
def IsAudit (b : Benchmark) : Prop :=
  ∃ info, b = .startup info

/-- The startup audit is of the kind startup, and no other benchmark is. -/
def KindFits (b : Benchmark) : Prop :=
  b.kind = .startup ↔ b.IsAudit

theorem not_isAudit_timed (b : TimedBenchmark) : ¬(Benchmark.timed b).IsAudit :=
  nofun

theorem kindFits_timed {b : TimedBenchmark} (h : b.info.kind ≠ .startup) :
    (Benchmark.timed b).KindFits :=
  iff_of_false h (not_isAudit_timed b)

end Benchmark

namespace Suite

/-- What is built has a kind that fits its shape. -/
def BuildsFitting (x : Build Benchmark) : Prop :=
  ∀ b, x = .ok b → b.KindFits

theorem buildsFitting_timed {id label description : String} {kind : BenchmarkKind}
    {throttle : Option Float} {init run after : List (Build Step)} (hkind : kind ≠ .startup) :
    BuildsFitting (timed id label description kind throttle init run after) := by
  intro b h
  obtain ⟨initHook, -, h⟩ := bind_eq_ok_iff.mp h
  obtain ⟨runHook, -, h⟩ := bind_eq_ok_iff.mp h
  obtain ⟨afterHook, -, h⟩ := bind_eq_ok_iff.mp h
  cases h
  exact Benchmark.kindFits_timed hkind

theorem buildsFitting_timedBenchmarks (shortTimeout : Duration) (warmups : UInt32) :
    ∀ x ∈ timedBenchmarks shortTimeout warmups, BuildsFitting x := by
  simp only [timedBenchmarks, List.forall_mem_cons]
  repeat' apply And.intro
  all_goals first | exact buildsFitting_timed (by decide) | exact List.forall_mem_nil _

/-- In the standard suite the startup audit is the only benchmark of the kind startup. -/
theorem kindFits_of_standard {options : RunOptions} {suite : List Benchmark}
    (h : standard options = .ok suite) : ∀ b ∈ suite, b.KindFits := by
  obtain ⟨built, hcollect, heq⟩ := bind_eq_ok_iff.mp h
  cases heq
  intro b hb
  rcases List.mem_append.mp hb with hb | hb
  · have hmem : (.ok b : Build Benchmark) ∈
        timedBenchmarks options.shortTimeout options.warmupCount := by
      rw [eq_map_of_collect hcollect]
      exact List.mem_map_of_mem hb
    exact buildsFitting_timedBenchmarks _ _ _ hmem b rfl
  · obtain rfl := List.mem_singleton.mp hb
    exact iff_of_true rfl ⟨_, rfl⟩

end Suite

namespace Catalog

theorem mem_put {b c : Benchmark} {known : List Benchmark} (h : c ∈ put b known) :
    c = b ∨ c ∈ known := by
  induction known with
  | nil => exact .inl (List.mem_singleton.mp h)
  | cons first rest ih =>
    rw [put] at h
    split at h
    · exact (List.mem_cons.mp h).imp_right (List.mem_cons_of_mem first)
    · rcases List.mem_cons.mp h with rfl | h
      · exact .inr List.mem_cons_self
      · exact (ih h).imp_right (List.mem_cons_of_mem first)

/-- A benchmark of a catalog is a custom one or one of the standard suite. -/
theorem mem_foldl_put {custom : List TimedBenchmark} {known : List Benchmark} {c : Benchmark}
    (h : c ∈ custom.foldl (fun known b => put (.timed b) known) known) :
    (∃ b ∈ custom, c = .timed b) ∨ c ∈ known := by
  induction custom generalizing known with
  | nil => exact .inr h
  | cons b custom ih =>
    rcases ih h with ⟨b', hb', rfl⟩ | hknown
    · exact .inl ⟨b', List.mem_cons_of_mem b hb', rfl⟩
    · exact (mem_put hknown).imp_left fun heq => ⟨b, List.mem_cons_self, heq⟩

variable {options : RunOptions} {custom : List TimedBenchmark} {catalog : Catalog}

theorem mem_withCustom (h : withCustom options custom = .ok catalog) {c : Benchmark}
    (hc : c ∈ catalog.benchmarks) : (∃ b ∈ custom, c = .timed b) ∨ c.KindFits := by
  obtain ⟨suite, hsuite, heq⟩ := bind_eq_ok_iff.mp h
  cases heq
  exact (mem_foldl_put hc).imp_right (Suite.kindFits_of_standard hsuite c)

/-- Kinds fit shapes in a catalog without custom benchmarks of the kind startup. -/
theorem kindFits_of_withCustom (h : withCustom options custom = .ok catalog)
    (hcustom : ∀ b ∈ custom, b.info.kind ≠ .startup) : ∀ c ∈ catalog.benchmarks, c.KindFits := by
  intro c hc
  rcases mem_withCustom h hc with ⟨b, hb, rfl⟩ | hfits
  · exact Benchmark.kindFits_timed (hcustom b hb)
  · exact hfits

/-- The startup audit of a catalog is of the kind startup. -/
theorem kind_of_startup_mem (h : withCustom options custom = .ok catalog) {info : BenchmarkInfo}
    (hmem : .startup info ∈ catalog.benchmarks) : info.kind = .startup := by
  rcases mem_withCustom h hmem with ⟨b, -, heq⟩ | hfits
  · cases heq
  · exact hfits.mpr ⟨info, rfl⟩

theorem mem_of_get {id : String} {b : Benchmark} (h : catalog.get id = some b) :
    b ∈ catalog.benchmarks ∧ b.id = id :=
  ⟨List.mem_of_find?_eq_some h, by simpa using List.find?_some h⟩

end Catalog

namespace Config

/-- A configuration that is accepted has no custom benchmark of the kind startup. -/
theorem kind_ne_startup_of_ofText {text : String} {c : Config} (h : ofText text = .ok c) :
    ∀ b ∈ c.benchmarks, b.info.kind ≠ .startup := by
  rw [ofText] at h
  split at h
  · cases h
  · rw [validate] at h
    split at h
    · cases h
    · next hnone =>
      split at h
      · cases h
      · cases h
        simpa using hnone

end Config

end PaintBench
