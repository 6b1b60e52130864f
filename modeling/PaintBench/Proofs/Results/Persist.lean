import PaintBench.Proofs.Quantity.Binary64
import PaintBench.Proofs.Results.Disk
import PaintBench.Proofs.Stats.Summary
import PaintBench.Results.Persist

/-!
# Results of timed benchmarks

A timed benchmark has one result kind. When it is persisted, its record is written to one file
(`ResultWriter.file?_of_written`), and when it is not, no file changes
(`ResultWriter.file?_of_not_written`). No benchmark whose values are numbers brings a run down
when it is persisted (`ResultWriter.persist_ne_unordered`).
-/

namespace PaintBench

/-- Where there are samples, there are statistics, unless they are not in order. -/
theorem Stats.summarize_ne_none {samples : List Float} (h : samples ≠ []) :
    Stats.summarize samples ≠ .ok none := by
  have hsorted : Stats.ascending samples ≠ [] := by
    intro hnil
    have hlength : (Stats.ascending samples).length = samples.length :=
      List.length_mergeSort samples
    rw [hnil] at hlength
    exact h (List.eq_nil_of_length_eq_zero hlength.symm)
  rw [Stats.summarize, List.head?_eq_some_head hsorted, List.getLast?_eq_some_getLast hsorted]
  intro hnone
  dsimp only at hnone
  cases hsummary : Stats.summarizeSorted (Stats.ascending samples)
    ((Stats.ascending samples).head hsorted) ((Stats.ascending samples).getLast hsorted) <;>
    rw [hsummary] at hnone <;> cases hnone

theorem ResultRecord.of_ne_none {i : Implementation} {kind : ResultKind} {values : List Float}
    (h : values ≠ []) : ResultRecord.of i kind values ≠ .ok none := by
  intro hnone
  rw [ResultRecord.of] at hnone
  cases hsummary : Stats.summarize values with
  | error range => rw [hsummary] at hnone; cases hnone
  | ok summary =>
    cases summary with
    | none => exact Stats.summarize_ne_none h hsummary
    | some summary => rw [hsummary] at hnone; cases hnone

/-- There are statistics of some numbers. -/
theorem Stats.exists_summary {samples : List Float} (h : ∀ x ∈ samples, x ≤ x)
    (hne : samples ≠ []) : ∃ summary, Stats.summarize samples = .ok (some summary) := by
  obtain ⟨_ | summary, hsummary⟩ := Stats.exists_summarize h
  · exact absurd hsummary (Stats.summarize_ne_none hne)
  · exact ⟨summary, hsummary⟩

/-- A single sample that is a number has a record. -/
theorem ResultRecord.exists_of_singleton {a : Float} (h : a ≤ a) (i : Implementation)
    (kind : ResultKind) : ∃ record, ResultRecord.of i kind [a] = .ok (some record) := by
  obtain ⟨summary, hsummary⟩ :=
    Stats.exists_summary (List.forall_mem_singleton.mpr h) (List.cons_ne_nil a [])
  exact ⟨_, by rw [ResultRecord.of, hsummary]; rfl⟩

theorem ResultRecord.values_of {i : Implementation} {kind : ResultKind} {values : List Float}
    {record : ResultRecord} (h : ResultRecord.of i kind values = .ok (some record)) :
    record.values = values := by
  rw [ResultRecord.of] at h
  cases hsummary : Stats.summarize values with
  | error range => rw [hsummary] at h; cases h
  | ok summary =>
    rw [hsummary] at h
    cases summary <;> cases h
    rfl

/-- The name of a result file is a name. -/
theorem resultFileName_ne (fullName kindId : String) :
    resultFileName fullName kindId ≠ "" ∧ resultFileName fullName kindId ≠ "." ∧
      resultFileName fullName kindId ≠ ".." := by
  have hlength : 5 ≤ (resultFileName fullName kindId).length := by
    rw [resultFileName, String.length_append]
    exact Nat.le_add_left 5 _
  refine ⟨?_, ?_, ?_⟩ <;> intro h <;> rw [h] at hlength <;> exact absurd hlength (by decide)

theorem isName_resultFileName (fullName kindId : String) :
    Disk.IsName (resultFileName fullName kindId) :=
  have ⟨hempty, hdot, hdots⟩ := resultFileName_ne fullName kindId
  ⟨hempty, hdot, hdots⟩

namespace ResultWriter

/-- What becomes of the first of some result kinds, and with what the others go on. -/
theorem persistKinds_cons (w : ResultWriter) (i : Implementation) (b : Benchmark)
    (samples : Samples) (expected : Nat) (kind : ResultKind) (rest : List ResultKind)
    (written : List String) (incomplete : Option (Soundness Float)) (d : Disk) :
    w.persistKinds i b samples expected (kind :: rest) written incomplete d =
      match completeValues expected (b.extract samples kind.id) with
      | .error actual =>
        w.persistKinds i b samples expected rest written
          (some (incomplete.getD (.sampleCount kind.id expected actual))) d
      | .ok values =>
        match ResultRecord.of i kind values with
        | .error range => (.unordered range, d)
        | .ok none => w.persistKinds i b samples expected rest written incomplete d
        | .ok (some record) =>
          if w.enabled then
            match d.write (w.pathOf i kind.id) record.text with
            | .error fault => (.failed (.results fault.message), d)
            | .ok d =>
              w.persistKinds i b samples expected rest (w.pathOf i kind.id :: written) incomplete d
          else w.persistKinds i b samples expected rest written incomplete d :=
  (rfl)

variable {w : ResultWriter} {i : Implementation} {b : TimedBenchmark} {values : List Float}

theorem completeValues_map_some (values : List Float) :
    completeValues values.length (values.map some) = .ok values := by
  have hvalues : (values.map some).filterMap id = values := by simp
  rw [completeValues, hvalues, List.length_map]
  exact if_pos ⟨rfl, rfl⟩

theorem resultKinds_timed : (Benchmark.timed b).resultKinds = [b.info.resultKind] := rfl

/-- What becomes of the only result kind, of which all values are there. -/
theorem persistKinds_timed (d : Disk) :
    w.persistKinds i (.timed b) (.timed values) values.length [b.info.resultKind] [] none d =
      match ResultRecord.of i b.info.resultKind values with
      | .error range => (.unordered range, d)
      | .ok none => (.written [], d)
      | .ok (some record) =>
        if w.enabled then
          match d.write (w.pathOf i b.info.id) record.text with
          | .error fault => (.failed (.results fault.message), d)
          | .ok d => (.written [w.pathOf i b.info.id], d)
        else (.written [], d) := by
  have hvalues : completeValues values.length
      ((Benchmark.timed b).extract (.timed values) b.info.resultKind.id) = .ok values :=
    completeValues_map_some values
  rw [persistKinds_cons, hvalues]
  rfl

variable {d d' : Disk} {outcome : PersistOutcome}

/-- Without a file written, no file changes. -/
theorem file?_of_not_written (hworking : d.entry? d.workingDirectory = some .directory)
    (h : w.persist i (.timed b) (.timed values) values.length d = (outcome, d'))
    (hwritten : (∀ paths, outcome ≠ .written paths) ∨ w.enabled = false) (place : Place) :
    d'.file? place = d.file? place := by
  have hmade := Disk.extends_createDirs w.directory hworking
  rw [persist] at h
  split at h
  · next henabled =>
    have hnot : ∀ paths, outcome ≠ .written paths := by
      rcases hwritten with hnot | hdisabled
      · exact hnot
      · rw [hdisabled] at henabled
        cases henabled
    split at h
    · next hcreate =>
      rw [hcreate] at hmade
      cases h
      exact hmade.files place
    · next made hcreate =>
      rw [hcreate] at hmade
      rw [← hmade.files place]
      simp only [resultKinds_timed, persistKinds_timed, henabled, if_true] at h
      split at h
      · cases h
        rfl
      · cases h
        exact absurd rfl (hnot _)
      · split at h <;> cases h
        · rfl
        · exact absurd rfl (hnot _)
  · next hdisabled =>
    simp only [resultKinds_timed, persistKinds_timed, hdisabled] at h
    split at h <;> cases h <;> rfl

/-- A record is written where its file can be. -/
theorem persist_eq_written {made : Disk} {record : ResultRecord} (henabled : w.enabled)
    (hmade : d.createDirs w.directory = (.ok (), made))
    (hrecord : ResultRecord.of i b.info.resultKind values = .ok (some record))
    (hwrite : made.write (w.pathOf i b.info.id) record.text = .ok d') :
    w.persist i (.timed b) (.timed values) values.length d =
      (.written [w.pathOf i b.info.id], d') := by
  rw [persist, if_pos henabled, hmade]
  dsimp only
  rw [resultKinds_timed, persistKinds_timed, hrecord]
  dsimp only
  rw [if_pos henabled, hwrite]

theorem slash_not_mem_resultFileName {fullName kindId : String} (hname : '/' ∉ fullName.toList)
    (hid : '/' ∉ kindId.toList) : '/' ∉ (resultFileName fullName kindId).toList := by
  simp [resultFileName, hname, hid]

/-- What was written is one record, in the results directory. -/
theorem file?_of_written (hworking : d.entry? d.workingDirectory = some .directory)
    (hname : '/' ∉ i.fullName.toList) (hid : '/' ∉ b.info.id.toList) (hvalues : values ≠ [])
    (henabled : w.enabled) {paths : List String}
    (h : w.persist i (.timed b) (.timed values) values.length d = (.written paths, d')) :
    ∃ place record, ResultRecord.of i b.info.resultKind values = .ok (some record) ∧
      d'.walk (d'.start w.directory) (rawParts w.directory) = .ok place ∧
      d'.file? (place ++ [resultFileName i.fullName b.info.id]) = some record.text ∧
      ∀ other, other ≠ place ++ [resultFileName i.fullName b.info.id] →
        d'.file? other = d.file? other := by
  have hmade := Disk.extends_createDirs w.directory hworking
  rw [persist, if_pos henabled] at h
  split at h
  · cases h
  · next made hcreate =>
    rw [hcreate] at hmade
    simp only [resultKinds_timed, persistKinds_timed, henabled, if_true] at h
    split at h
    · cases h
    · next hnone => exact absurd hnone (ResultRecord.of_ne_none hvalues)
    · next record hrecord =>
      split at h
      · cases h
      · next hwrite =>
        cases h
        have hmadeWorking : made.entry? made.workingDirectory = some .directory :=
          Disk.working_of_directories hmade.workingDirectory hmade.directories hworking
        obtain ⟨hempty, hdot, hdots⟩ := resultFileName_ne i.fullName b.info.id
        obtain ⟨place, hwalk, hreplaces⟩ := Disk.replaces_of_write_joinPath
          (slash_not_mem_resultFileName hname hid) hempty hdot hdots hmadeWorking hwrite
        refine ⟨place, record, hrecord, ?_, hreplaces.file?_eq, fun other hne =>
          (hreplaces.file?_of_ne hne).trans (hmade.files other)⟩
        rw [hreplaces.start_eq]
        exact hreplaces.walk_eq hwalk

end ResultWriter

/-! ## Values that are numbers -/

/-- All values that a benchmark finds among some samples are numbers. -/
def Benchmark.FindsNumbers (b : Benchmark) (samples : Samples) : Prop :=
  ∀ kindId x, some x ∈ b.extract samples kindId → x ≤ x

namespace Benchmark

variable {b : Benchmark}

/-- Values of a timed benchmark are the samples. -/
theorem findsNumbers_timed {values : List Float} (h : ∀ x ∈ values, x ≤ x) :
    b.FindsNumbers (.timed values) := by
  intro kindId x hx
  cases b with
  | timed b =>
    obtain ⟨y, hy, heq⟩ := List.mem_map.mp hx
    cases heq
    exact h x hy
  | startup info => cases hx

/-- Values of the startup audit are metrics. -/
theorem findsNumbers_startup {reports : List StartupMetrics}
    (h : ∀ metrics ∈ reports, ∀ metric x, metrics.get metric = some x → x ≤ x) :
    b.FindsNumbers (.startup reports) := by
  intro kindId x hx
  cases b with
  | timed b => cases hx
  | startup info =>
    rw [extract] at hx
    split at hx
    · next metric _ =>
      obtain ⟨metrics, hmetrics, hget⟩ := List.mem_map.mp hx
      exact h metrics hmetrics metric x hget
    · cases hx

end Benchmark

/-- Values that are numbers have a record, if there are any. -/
theorem ResultRecord.exists_of {i : Implementation} {kind : ResultKind} {values : List Float}
    (h : ∀ x ∈ values, x ≤ x) : ∃ record, ResultRecord.of i kind values = .ok record := by
  obtain ⟨summary, hsummary⟩ := Stats.exists_summarize h
  exact ⟨_, by rw [ResultRecord.of, hsummary]; rfl⟩

namespace ResultWriter

variable {w : ResultWriter} {i : Implementation} {b : Benchmark} {samples : Samples}
  {expected : Nat}

theorem persistKinds_ne_unordered (h : b.FindsNumbers samples) (kinds : List ResultKind)
    (written : List String) (incomplete : Option (Soundness Float)) (d : Disk)
    (range : Stats.Unordered Float) :
    (w.persistKinds i b samples expected kinds written incomplete d).1 ≠ .unordered range := by
  induction kinds generalizing written incomplete d with
  | nil => cases incomplete <;> nofun
  | cons kind rest ih =>
    rw [persistKinds_cons]
    split
    · exact ih _ _ d
    · next values hcomplete =>
      have hvalues : ∀ x ∈ values, x ≤ x := by
        intro x hx
        rw [completeValues] at hcomplete
        split at hcomplete <;> cases hcomplete
        exact h kind.id x (by simpa using hx)
      obtain ⟨record, hrecord⟩ : ∃ record, ResultRecord.of i kind values = .ok record :=
        ResultRecord.exists_of hvalues
      rw [hrecord]
      cases record with
      | none => exact ih _ _ d
      | some record =>
        dsimp only
        split
        · split
          · nofun
          · next d' _ => exact ih _ _ d'
        · exact ih _ _ d

/-- Persisting numbers succeeds or fails, but does not bring the run down. -/
theorem persist_ne_unordered (h : b.FindsNumbers samples) (d : Disk)
    (range : Stats.Unordered Float) : (w.persist i b samples expected d).1 ≠ .unordered range := by
  rw [persist]
  split
  · split
    · nofun
    · next d' _ => exact persistKinds_ne_unordered h _ _ _ d' range
  · exact persistKinds_ne_unordered h _ _ _ d range

end ResultWriter

end PaintBench
