import Mathlib.Data.List.ReduceOption
import PaintBench.Catalog.Benchmark
import PaintBench.Proofs.Trace.Numbers

/-!
# Figures of audit reports

The audits of a report stand at its top level or below `lhr` (`HoldsAudits`), and the figure of an
audit is its numeric value (`HasFigure`). Each result kind of the startup audit reports one figure,
converted to its unit (`StartupFigure.extract_eq`). A report in a member `lhr` of
another object has the same figures (`hasFigure_wrapped_iff`).
-/

namespace PaintBench

namespace StartupMetrics

/-- The audits of a report: its member `audits`, or that of its member `lhr` if it has none. -/
def HoldsAudits (report audits : Json) : Prop :=
  report.get? "audits" = some audits ∨
    report.get? "audits" = none ∧ ∃ lhr, report.get? "lhr" = some lhr ∧
      lhr.get? "audits" = some audits

/-- The figure of an audit: the number in its member `numericValue`. -/
def HasFigure (report : Json) (auditId : String) (x : Float) : Prop :=
  ∃ audits audit n, HoldsAudits report audits ∧ audits.get? auditId = some audit ∧
    audit.get? "numericValue" = some (.num n) ∧ n.toFloat = x

theorem at?_pair (j : Json) (outer inner : String) :
    j.at? [outer, inner] = (j.get? outer).bind (·.get? inner) := by
  rw [Json.at?]
  refine Option.bind_congr fun k _ => ?_
  rw [Json.at?]
  cases k.get? inner <;> rfl

theorem audits?_eq_some_iff {report audits : Json} :
    audits? report = some audits ↔ HoldsAudits report audits := by
  rw [audits?, Option.or_eq_some_iff, at?_pair, Option.bind_eq_some_iff, HoldsAudits]

theorem float?_eq_some_iff {j : Json} {x : Float} :
    j.float? = some x ↔ ∃ n, j = .num n ∧ n.toFloat = x := by
  cases j <;> simp [Json.float?]

theorem auditValue_eq_some_iff {report : Json} {auditId : String} {x : Float} :
    auditValue report auditId = some x ↔ HasFigure report auditId x := by
  simp only [auditValue, Option.bind_eq_some_iff, audits?_eq_some_iff, at?_pair,
    float?_eq_some_iff, HasFigure]
  constructor
  · rintro ⟨audits, haudits, value, ⟨audit, haudit, hvalue⟩, n, rfl, hn⟩
    exact ⟨audits, audit, n, haudits, haudit, hvalue, hn⟩
  · rintro ⟨audits, audit, n, haudits, haudit, hvalue, hn⟩
    exact ⟨audits, haudits, _, ⟨audit, haudit, hvalue⟩, n, rfl, hn⟩

/-- A report with audits at its top level has the same figures as an object that has it as its
member `lhr`, and no audits at its own top level. -/
theorem hasFigure_wrapped_iff {report wrapped : Json} {auditId : String} {x : Float}
    (haudits : report.get? "audits" ≠ none) (hlhr : wrapped.get? "lhr" = some report)
    (htop : wrapped.get? "audits" = none) :
    HasFigure wrapped auditId x ↔ HasFigure report auditId x := by
  have hsame (audits : Json) : HoldsAudits wrapped audits ↔ HoldsAudits report audits := by
    simp [HoldsAudits, hlhr, htop, haudits]
  simp only [HasFigure, hsame]

end StartupMetrics

/-- A figure that a startup run reports: the result kind, the audit that it is taken from, and how
it is converted. -/
structure StartupFigure where
  resultId : String
  auditId : String
  convert : Float → Float

/-- When the page was interactive and for how long its scripts were booting, which takes some time
at least, both in milliseconds, and how many kilobytes were loaded. -/
def startupFigures : List StartupFigure :=
  [⟨"31_startup-ci", "interactive", id⟩,
    ⟨"32_startup-bt", "bootup-time", (Quantity.max · 16)⟩,
    ⟨"34_startup-totalbytes", "total-byte-weight", (· / 1024)⟩]

namespace StartupFigure

open StartupMetrics (HasFigure auditValue auditValue_eq_some_iff)

/-- A report has a value for a result kind. -/
def HasValue (f : StartupFigure) (report : Json) (x : Float) : Prop :=
  ∃ y, HasFigure report f.auditId y ∧ f.convert y = x

instance (f : StartupFigure) (report : Json) : Decidable (∃ x, f.HasValue report x) :=
  decidable_of_iff ((auditValue report f.auditId).isSome) <| by
    simp only [Option.isSome_iff_exists, auditValue_eq_some_iff, HasValue]
    constructor
    · rintro ⟨y, hy⟩
      exact ⟨_, y, hy, rfl⟩
    · rintro ⟨_, y, hy, -⟩
      exact ⟨y, hy⟩

/-- All reports have a value for a result kind. -/
def IsComplete (f : StartupFigure) (reports : List Json) : Prop :=
  ∀ report ∈ reports, ∃ x, f.HasValue report x

instance (f : StartupFigure) (reports : List Json) : Decidable (f.IsComplete reports) :=
  inferInstanceAs (Decidable (∀ report ∈ reports, ∃ x, f.HasValue report x))

theorem hasValue_iff {f : StartupFigure} {report : Json} {x : Float} :
    f.HasValue report x ↔ (auditValue report f.auditId).map f.convert = some x := by
  simp only [HasValue, Option.map_eq_some_iff, auditValue_eq_some_iff]

theorem isSome_iff {f : StartupFigure} {report : Json} :
    ((auditValue report f.auditId).map f.convert).isSome ↔ ∃ x, f.HasValue report x := by
  simp only [Option.isSome_iff_exists, hasValue_iff]

/-- Each result kind reports its metric, one value for a report. -/
theorem extract_of_metric {id : String} {metric : StartupMetric}
    (h : startupMetric? id = some metric) (info : BenchmarkInfo) (reports : List Json) :
    (Benchmark.startup info).extract (.startup (reports.map .ofReport)) id =
      reports.map fun report => (StartupMetrics.ofReport report).get metric := by
  simp only [Benchmark.extract, h, List.map_map]
  rfl

/-- The values of a result kind are those that a benchmark finds for it, a report for a value. -/
theorem extract_eq {f : StartupFigure} (hf : f ∈ startupFigures) (info : BenchmarkInfo)
    (reports : List Json) :
    (Benchmark.startup info).extract (.startup (reports.map .ofReport)) f.resultId =
      reports.map fun report => (auditValue report f.auditId).map f.convert := by
  simp only [startupFigures, List.mem_cons, List.not_mem_nil, or_false] at hf
  rcases hf with rfl | rfl | rfl
  · have hmetric : startupMetric? "31_startup-ci" = some .interactive := by decide
    rw [extract_of_metric hmetric]
    simp only [Option.map_id_fun]
    rfl
  · have hmetric : startupMetric? "32_startup-bt" = some .bootupTime := by decide
    exact extract_of_metric hmetric info reports
  · have hmetric : startupMetric? "34_startup-totalbytes" = some .totalKilobyteWeight := by decide
    exact extract_of_metric hmetric info reports

/-! ## Values of result kinds -/

variable {f : StartupFigure} {info : BenchmarkInfo} {reports : List Json}

/-- The values of a complete result kind are those of the reports, in their order. -/
theorem forall₂_hasValue (hf : f ∈ startupFigures) {values : List Float}
    (h : (Benchmark.startup info).extract (.startup (reports.map .ofReport)) f.resultId =
      values.map some) : List.Forall₂ f.HasValue reports values := by
  rw [extract_eq hf] at h
  induction reports generalizing values with
  | nil =>
    obtain rfl := List.map_eq_nil_iff.mp h.symm
    exact .nil
  | cons report reports ih =>
    obtain ⟨x, rest, rfl, hx, hrest⟩ := List.map_eq_cons_iff.mp h.symm
    exact .cons (hasValue_iff.mpr hx.symm) (ih hrest.symm)

/-- As many values of a result kind are there as reports have one. -/
theorem length_reduceOption_extract (hf : f ∈ startupFigures) :
    ((Benchmark.startup info).extract (.startup (reports.map .ofReport))
      f.resultId).reduceOption.length = reports.countP fun report => ∃ x, f.HasValue report x := by
  rw [extract_eq hf, List.reduceOption_length_eq, ← List.countP_eq_length_filter, List.countP_map]
  refine List.countP_congr fun report _ => ?_
  rw [Function.comp_apply, isSome_iff, decide_eq_true_iff]

/-- Reports with the same figures have the same values. -/
theorem extract_congr {reports' : List Json} (hf : f ∈ startupFigures)
    (h : List.Forall₂ (fun report report' => ∀ x, HasFigure report' f.auditId x ↔
      HasFigure report f.auditId x) reports reports') :
    (Benchmark.startup info).extract (.startup (reports'.map .ofReport)) f.resultId =
      (Benchmark.startup info).extract (.startup (reports.map .ofReport)) f.resultId := by
  rw [extract_eq hf, extract_eq hf]
  induction h with
  | nil => rfl
  | cons hsame _ ih =>
    have hvalue := Option.ext fun x => auditValue_eq_some_iff.trans
      ((hsame x).trans auditValue_eq_some_iff.symm)
    rw [List.map_cons, List.map_cons, hvalue, ih]

end StartupFigure

end PaintBench
