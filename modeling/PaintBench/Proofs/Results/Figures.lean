import PaintBench.Proofs.Results.Paths
import PaintBench.Proofs.Trace.AuditFigures

/-!
# Results of startup audits

The result kinds of the startup audit are complete if all reports have a value for them
(`StartupFigure.isComplete_iff`). They are persisted one for one, with the values in the order of
the reports, and the first one that is not complete is reported
(`ResultWriter.persist_figures`).
-/

namespace PaintBench

namespace StartupFigure

variable {f : StartupFigure} {info : BenchmarkInfo} {reports : List Json}

/-- The result kind of a figure is complete if all reports have a value. -/
theorem isComplete_iff (hf : f ∈ startupFigures) {kind : ResultKind}
    (hkind : kind.id = f.resultId) :
    (Benchmark.startup info).IsComplete (.startup (reports.map .ofReport)) reports.length kind ↔
      f.IsComplete reports := by
  have hentries := extract_eq hf info reports
  rw [← hkind] at hentries
  constructor
  · rintro ⟨-, hpresent⟩ report hreport
    exact isSome_iff.mp (hpresent _ (hentries ▸ List.mem_map_of_mem hreport))
  · intro hcomplete
    refine ⟨by rw [hentries, List.length_map], fun entry hentry => ?_⟩
    rw [hentries] at hentry
    obtain ⟨report, hreport, rfl⟩ := List.mem_map.mp hentry
    exact isSome_iff.mpr (hcomplete report hreport)

/-- What is reported of a figure that is not complete: how many reports have a value for it. -/
def shortfall (f : StartupFigure) (reports : List Json) : Soundness Float :=
  .sampleCount f.resultId reports.length (reports.countP fun report => ∃ x, f.HasValue report x)

/-- What is reported of the first one of some figures that is not complete. -/
def firstShortfall? (figures : List StartupFigure) (reports : List Json) :
    Option (Soundness Float) :=
  (figures.find? fun f => !decide (f.IsComplete reports)).map (·.shortfall reports)

/-- Result kinds are those of some figures. -/
def AreKindsOf (kinds : List ResultKind) (figures : List StartupFigure) : Prop :=
  List.Forall₂ (fun kind f => kind.id = f.resultId ∧ f ∈ startupFigures) kinds figures

theorem areKindsOf_resultKinds (info : BenchmarkInfo) :
    AreKindsOf (Benchmark.startup info).resultKinds startupFigures := by
  simp [AreKindsOf, Benchmark.resultKinds, startupResults, startupFigures]

theorem firstShortfall?_eq {kinds : List ResultKind} {figures : List StartupFigure}
    (h : AreKindsOf kinds figures) :
    (Benchmark.startup info).firstShortfall? (.startup (reports.map .ofReport)) reports.length
      kinds = firstShortfall? figures reports := by
  induction h with
  | nil => rfl
  | @cons kind f kinds figures hf _ ih =>
    obtain ⟨hid, hf⟩ := hf
    have hcomplete : (Benchmark.startup info).IsComplete (.startup (reports.map .ofReport))
        reports.length kind ↔ f.IsComplete reports := isComplete_iff hf hid
    by_cases hfigure : f.IsComplete reports
    · rw [Benchmark.firstShortfall?_cons_of_complete (hcomplete.mpr hfigure), ih, firstShortfall?,
        firstShortfall?, List.find?_cons_of_neg (by simpa using hfigure)]
    · rw [Benchmark.firstShortfall?_cons_of_incomplete (hcomplete.not.mpr hfigure),
        firstShortfall?, List.find?_cons_of_pos (by simpa using hfigure), Benchmark.shortfall, hid,
        length_reduceOption_extract hf]
      rfl

theorem exists_kind (hf : f ∈ startupFigures) (info : BenchmarkInfo) :
    ∃ kind ∈ (Benchmark.startup info).resultKinds, kind.id = f.resultId := by
  simp only [startupFigures, List.mem_cons, List.not_mem_nil, or_false] at hf
  rcases hf with rfl | rfl | rfl <;> simp [Benchmark.resultKinds, startupResults]

theorem exists_figure {kind : ResultKind} (hkind : kind ∈ (Benchmark.startup info).resultKinds) :
    ∃ f ∈ startupFigures, kind.id = f.resultId := by
  simp only [Benchmark.resultKinds, startupResults, List.map_cons, List.map_nil, List.mem_cons,
    List.not_mem_nil, or_false] at hkind
  rcases hkind with rfl | rfl | rfl <;> simp [startupFigures]

/-- The figures of finite reports are numbers. -/
theorem findsNumbers (hfinite : ∀ report ∈ reports, report.HasFiniteNumbers) :
    (Benchmark.startup info).FindsNumbers (.startup (reports.map .ofReport)) := by
  refine Benchmark.findsNumbers_startup fun metrics hmetrics metric x hget => ?_
  obtain ⟨report, hreport, rfl⟩ := List.mem_map.mp hmetrics
  exact StartupMetrics.get_ofReport_le_self (hfinite report hreport) hget

end StartupFigure

namespace ResultWriter

variable {w : ResultWriter} {i : Implementation} {info : BenchmarkInfo} {reports : List Json}
  {d d' : Disk}

/-- The records of the complete figures of some reports stand where their paths lead, with the
values in the order of the reports. Every other file is as it was, also where the paths of the
other figures lead. -/
structure FiguresAtPaths (w : ResultWriter) (i : Implementation) (reports : List Json)
    (d d' : Disk) : Prop where
  written : ∀ f ∈ startupFigures, f.IsComplete reports → ∃ kind ∈ startupResults.map (·.1),
    ∃ values record, kind.id = f.resultId ∧ List.Forall₂ f.HasValue reports values ∧
      ResultRecord.of i kind values = .ok (some record) ∧
      d'.read? (w.pathOf i f.resultId) = some record.text
  kept : ∀ f ∈ startupFigures, ¬f.IsComplete reports → ∀ place entry,
    d'.target (w.pathOf i f.resultId) = .ok (place, entry) → d'.file? place = d.file? place
  others : ∀ place, d'.file? place ≠ d.file? place → ∃ f ∈ startupFigures,
    f.IsComplete reports ∧ d'.target (w.pathOf i f.resultId) = .ok (place, d'.entry? place)

/-- The result kinds of the startup audit stand for its figures. -/
theorem KindsAtPaths.figuresAtPaths (h : KindsAtPaths w i (.startup info)
      (.startup (reports.map .ofReport)) reports.length (Benchmark.startup info).resultKinds d d') :
    FiguresAtPaths w i reports d d' where
  written f hf hcomplete := by
    obtain ⟨kind, hkind, hid⟩ := f.exists_kind hf info
    obtain ⟨record, ⟨values, summary, hvalues, hsummary, rfl⟩, hread⟩ :=
      h.written kind hkind ((StartupFigure.isComplete_iff hf hid).mpr hcomplete)
    rw [hid] at hvalues hread
    refine ⟨kind, hkind, values, _, hid, StartupFigure.forall₂_hasValue hf hvalues, ?_, hread⟩
    rw [ResultRecord.of, hsummary]
    rfl
  kept f hf hincomplete place entry htarget := by
    obtain ⟨kind, hkind, hid⟩ := f.exists_kind hf info
    refine h.kept kind hkind ((StartupFigure.isComplete_iff hf hid).not.mpr hincomplete) place entry
      ?_
    rw [hid]
    exact htarget
  others place hplace := by
    obtain ⟨kind, hkind, hcomplete, htarget⟩ := h.others place hplace
    obtain ⟨f, hf, hid⟩ := StartupFigure.exists_figure hkind
    rw [hid] at htarget
    exact ⟨f, hf, (StartupFigure.isComplete_iff hf hid).mp hcomplete, htarget⟩

/-- The complete figures of some reports are persisted where the file operations do not fail, and
the first one that is not complete is reported. -/
theorem persist_figures (directory : String) (hne : reports ≠ [])
    (hfinite : ∀ report ∈ reports, report.HasFiniteNumbers)
    (hworking : d.entry? d.workingDirectory = some .directory)
    (hfits : FilesFit i (.startup info) (.startup (reports.map .ofReport)) reports.length directory
      d) :
    ∃ paths d', persist ⟨directory, true⟩ i (.startup info) (.startup (reports.map .ofReport))
        reports.length d =
          (concluded paths (StartupFigure.firstShortfall? startupFigures reports), d') ∧
      FiguresAtPaths ⟨directory, true⟩ i reports d d' := by
  have hids : ∀ kind ∈ (Benchmark.startup info).resultKinds, '/' ∉ kind.id.toList := by
    intro kind hkind
    obtain ⟨f, hf, hid⟩ := StartupFigure.exists_figure hkind
    rw [hid]
    simp only [startupFigures, List.mem_cons, List.not_mem_nil, or_false] at hf
    rcases hf with rfl | rfl | rfl <;> decide
  obtain ⟨paths, d', hpersist, hkinds⟩ := persist_at_paths directory hids
    (StartupFigure.findsNumbers hfinite) (List.length_pos_iff.mpr hne) hworking hfits
  rw [StartupFigure.firstShortfall?_eq (StartupFigure.areKindsOf_resultKinds info)] at hpersist
  exact ⟨paths, d', hpersist, hkinds.figuresAtPaths⟩

end ResultWriter

end PaintBench
