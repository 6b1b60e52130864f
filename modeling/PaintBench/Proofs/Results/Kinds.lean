import Mathlib.Data.List.ReduceOption
import Mathlib.Data.Set.List
import PaintBench.Proofs.Results.Persist

/-!
# Result kinds, each for itself

A benchmark has several result kinds, of which some may be incomplete (`Benchmark.IsComplete`).
One kind after the other, `ResultWriter.persistKinds` writes the complete ones and remembers the
first one that is not. Writing a file takes nothing away from the kinds to come
(`ResultWriter.Reaches.exists_write`), so the files of a run are those of its complete kinds,
whatever the others are (`ResultWriter.persist_kind_by_kind`).
-/

namespace PaintBench

/-- All numbers of some samples are finite. -/
def Samples.AreFinite : Samples → Prop
  | timed values => ∀ x ∈ values, x.isFinite
  | startup reports => ∀ report ∈ reports, ∀ metric x, report.get metric = some x → x.isFinite

namespace Benchmark

/-! ## Complete kinds -/

variable {b : Benchmark} {samples : Samples} {expected : Nat} {kind : ResultKind}

theorem findsNumbers_of_areFinite (h : samples.AreFinite) : b.FindsNumbers samples := by
  cases samples with
  | timed values => exact findsNumbers_timed fun x hx => Binary64.le_self_of_isFinite (h x hx)
  | startup reports =>
    exact findsNumbers_startup fun report hreport metric x hget =>
      Binary64.le_self_of_isFinite (h report hreport metric x hget)

/-- A result kind has exactly the expected number of entries, and none of them is missing. -/
structure IsComplete (b : Benchmark) (samples : Samples) (expected : Nat) (kind : ResultKind) :
    Prop where
  length : (b.extract samples kind.id).length = expected
  present : ∀ entry ∈ b.extract samples kind.id, entry.isSome

instance : Decidable (b.IsComplete samples expected kind) :=
  decidable_of_iff (_ ∧ _) ⟨fun h => ⟨h.1, h.2⟩, fun h => ⟨h.1, h.2⟩⟩

/-- What is reported of a result kind that is not complete: how many of its values are there. -/
def shortfall (b : Benchmark) (samples : Samples) (expected : Nat) (kind : ResultKind) :
    Soundness Float :=
  .sampleCount kind.id expected (b.extract samples kind.id).reduceOption.length

/-- What is reported of the first incomplete one of some result kinds. -/
def firstShortfall? (b : Benchmark) (samples : Samples) (expected : Nat)
    (kinds : List ResultKind) : Option (Soundness Float) :=
  (kinds.find? fun kind => !decide (b.IsComplete samples expected kind)).map
    (b.shortfall samples expected)

theorem firstShortfall?_nil : b.firstShortfall? samples expected [] = none := rfl

theorem firstShortfall?_cons_of_incomplete {rest : List ResultKind}
    (h : ¬b.IsComplete samples expected kind) :
    b.firstShortfall? samples expected (kind :: rest) =
      some (b.shortfall samples expected kind) := by
  rw [firstShortfall?, List.find?_cons_of_pos (by simpa using h)]
  rfl

theorem firstShortfall?_cons_of_complete {rest : List ResultKind}
    (h : b.IsComplete samples expected kind) :
    b.firstShortfall? samples expected (kind :: rest) =
      b.firstShortfall? samples expected rest := by
  rw [firstShortfall?, List.find?_cons_of_neg (by simpa using h)]
  rfl

theorem firstShortfall?_append_cons {before after : List ResultKind}
    (hbefore : ∀ k ∈ before, b.IsComplete samples expected k)
    (h : ¬b.IsComplete samples expected kind) :
    b.firstShortfall? samples expected (before ++ kind :: after) =
      some (b.shortfall samples expected kind) := by
  induction before with
  | nil => exact firstShortfall?_cons_of_incomplete h
  | cons k before ih =>
    obtain ⟨hk, hbefore⟩ := List.forall_mem_cons.mp hbefore
    rw [List.cons_append, firstShortfall?_cons_of_complete hk, ih hbefore]

theorem firstShortfall?_eq_none_iff {kinds : List ResultKind} :
    b.firstShortfall? samples expected kinds = none ↔
      ∀ kind ∈ kinds, b.IsComplete samples expected kind := by
  simp [firstShortfall?]

/-- A record holds the entries of a result kind in their order, and the summary of them. -/
def IsRecord (i : Implementation) (b : Benchmark) (samples : Samples) (kind : ResultKind)
    (record : ResultRecord) : Prop :=
  ∃ values summary, b.extract samples kind.id = values.map some ∧
    Stats.summarize values = .ok (some summary) ∧ record = .ofSummary i kind values summary

theorem IsComplete.exists_values (h : b.IsComplete samples expected kind) :
    ∃ values : List Float, b.extract samples kind.id = values.map some ∧
      values.length = expected := by
  obtain ⟨values, hvalues⟩ :
      b.extract samples kind.id ∈ Set.range (List.map (some : Float → Option Float)) := by
    rw [Set.range_list_map]
    intro entry hentry
    obtain ⟨x, rfl⟩ := Option.isSome_iff_exists.mp (h.present entry hentry)
    exact ⟨x, rfl⟩
  have hlength := h.length
  rw [← hvalues, List.length_map] at hlength
  exact ⟨values, hvalues.symm, hlength⟩

theorem completeValues_of_not_isComplete (h : ¬b.IsComplete samples expected kind) :
    ResultWriter.completeValues expected (b.extract samples kind.id) =
      .error (b.extract samples kind.id).reduceOption.length := by
  rw [ResultWriter.completeValues]
  refine if_neg fun hcounts => h ⟨hcounts.1, ?_⟩
  exact List.reduceOption_length_eq_iff.mp (hcounts.2.trans hcounts.1.symm)

/-- A complete result kind has a record. -/
theorem IsComplete.exists_record (h : b.IsComplete samples expected kind)
    (hnumbers : b.FindsNumbers samples) (hexpected : 1 ≤ expected) (i : Implementation) :
    ∃ values record, b.IsRecord i samples kind record ∧
      ResultWriter.completeValues expected (b.extract samples kind.id) = .ok values ∧
      ResultRecord.of i kind values = .ok (some record) := by
  obtain ⟨values, hvalues, hlength⟩ := h.exists_values
  have hmem : ∀ x ∈ values, x ≤ x := fun x hx =>
    hnumbers kind.id x (hvalues ▸ List.mem_map_of_mem hx)
  have hne : values ≠ [] := List.ne_nil_of_length_pos (hlength ▸ hexpected)
  obtain ⟨summary, hsummary⟩ := Stats.exists_summary hmem hne
  refine ⟨values, _, ⟨values, summary, hvalues, hsummary, rfl⟩, ?_, ?_⟩
  · rw [hvalues, ← hlength]
    exact ResultWriter.completeValues_map_some values
  · rw [ResultRecord.of, hsummary]
    rfl

end Benchmark

namespace ResultWriter

/-! ## How persisting ends -/

/-- The end of persisting with some paths written, and with what is reported, if anything. -/
def concluded (paths : List String) : Option (Soundness Float) → PersistOutcome
  | none => .written paths
  | some e => .failed (.soundness e)

/-- Persisting succeeds with some paths if all result kinds are complete, and fails otherwise. The
failure is that of the first incomplete kind and says how many of its values are there. -/
structure Judges (b : Benchmark) (samples : Samples) (expected : Nat) (paths : List String)
    (outcome : PersistOutcome) : Prop where
  written_iff :
    outcome = .written paths ↔ ∀ kind ∈ b.resultKinds, b.IsComplete samples expected kind
  failed : ∀ before kind after, b.resultKinds = before ++ kind :: after →
    (∀ k ∈ before, b.IsComplete samples expected k) → ¬b.IsComplete samples expected kind →
    outcome = .failed (.soundness (.sampleCount kind.id expected
      (b.extract samples kind.id).reduceOption.length))

variable {w : ResultWriter} {i : Implementation} {b : Benchmark} {samples : Samples}
  {expected : Nat} {kind : ResultKind} {rest kinds : List ResultKind} {written paths : List String}
  {incomplete : Option (Soundness Float)} {d d' : Disk}

theorem concluded_eq_failed_iff {shortfall? : Option (Soundness Float)} {e : RunError} :
    concluded paths shortfall? = .failed e ↔ ∃ s, shortfall? = some s ∧ .soundness s = e := by
  cases shortfall? <;> simp [concluded]

theorem judges_concluded {complete : List String}
    (h : (∀ kind ∈ b.resultKinds, b.IsComplete samples expected kind) → complete = paths) :
    Judges b samples expected paths
      (concluded complete (b.firstShortfall? samples expected b.resultKinds)) where
  written_iff := by
    rw [← Benchmark.firstShortfall?_eq_none_iff] at h ⊢
    cases hfirst : b.firstShortfall? samples expected b.resultKinds with
    | none => simp [concluded, h hfirst]
    | some e => simp [concluded]
  failed before kind after hkinds hbefore hkind := by
    rw [hkinds, Benchmark.firstShortfall?_append_cons hbefore hkind]
    rfl

theorem persistKinds_nil : w.persistKinds i b samples expected [] written incomplete d =
    (concluded written.reverse incomplete, d) := by
  cases incomplete <;> rfl

theorem persistKinds_of_incomplete (h : ¬b.IsComplete samples expected kind) :
    w.persistKinds i b samples expected (kind :: rest) written incomplete d =
      w.persistKinds i b samples expected rest written
        (incomplete.or (some (b.shortfall samples expected kind))) d := by
  rw [persistKinds_cons, Benchmark.completeValues_of_not_isComplete h]
  cases incomplete <;> rfl

theorem persistKinds_of_written {values : List Float} {record : ResultRecord} (henabled : w.enabled)
    (hvalues : completeValues expected (b.extract samples kind.id) = .ok values)
    (hrecord : ResultRecord.of i kind values = .ok (some record))
    (hwrite : d.write (w.pathOf i kind.id) record.text = .ok d') :
    w.persistKinds i b samples expected (kind :: rest) written incomplete d =
      w.persistKinds i b samples expected rest (w.pathOf i kind.id :: written) incomplete d' := by
  rw [persistKinds_cons, hvalues]
  dsimp only
  rw [hrecord]
  dsimp only
  rw [if_pos henabled, hwrite]

/-- Without writing, the kinds are looked through and the disk stays as it is. -/
theorem persistKinds_of_disabled (hnumbers : b.FindsNumbers samples) (hexpected : 1 ≤ expected)
    (hdisabled : w.enabled = false) :
    w.persistKinds i b samples expected kinds written incomplete d =
      (concluded written.reverse
        (incomplete.or (b.firstShortfall? samples expected kinds)), d) := by
  induction kinds generalizing incomplete with
  | nil => rw [persistKinds_nil, Benchmark.firstShortfall?_nil, Option.or_none]
  | cons kind rest ih =>
    by_cases hcomplete : b.IsComplete samples expected kind
    · obtain ⟨values, record, -, hvalues, hrecord⟩ := hcomplete.exists_record hnumbers hexpected i
      rw [persistKinds_cons, hvalues, Benchmark.firstShortfall?_cons_of_complete hcomplete, ← ih]
      dsimp only
      rw [hrecord]
      dsimp only
      rw [if_neg (by simp [hdisabled])]
    · rw [persistKinds_of_incomplete hcomplete, ih, Option.or_assoc, Option.some_or,
        Benchmark.firstShortfall?_cons_of_incomplete hcomplete]

/-! ## Writing -/

/-- The files of some kinds have the same path up to their names, which leads to a place, and the
file of each complete kind can be written. -/
structure Reaches (w : ResultWriter) (i : Implementation) (b : Benchmark) (samples : Samples)
    (expected : Nat) (above base : String) (place : Place) (kinds : List ResultKind) (d : Disk) :
    Prop where
  working : d.entry? d.workingDirectory = some .directory
  splits : ∀ kind ∈ kinds,
    Disk.SplitPath (w.pathOf i kind.id) above (resultFileName base kind.id)
  leads : d.walk (d.start above) (rawParts above) = .ok place
  fits : ∀ kind ∈ kinds, b.IsComplete samples expected kind → ∀ content, ∃ after,
    d.write (w.pathOf i kind.id) content = .ok after

/-- The files of the complete ones of some kinds, whose names have a common beginning, hold their
records, and every other file is as it was. -/
structure KindsPlaced (i : Implementation) (b : Benchmark) (samples : Samples) (expected : Nat)
    (base : String) (place : Place) (kinds : List ResultKind) (d d' : Disk) : Prop where
  files : ∀ kind ∈ kinds, b.IsComplete samples expected kind → ∃ record,
    b.IsRecord i samples kind record ∧
      d'.file? (place ++ [resultFileName base kind.id]) = some record.text
  others : ∀ other, (∀ kind ∈ kinds, b.IsComplete samples expected kind →
      other ≠ place ++ [resultFileName base kind.id]) →
    d'.file? other = d.file? other

theorem resultFileName_inj {fullName k k' : String} :
    resultFileName fullName k = resultFileName fullName k' ↔ k = k' := by
  rw [resultFileName, resultFileName, String.append_left_inj, String.append_right_inj]

variable {place : Place} {above base : String}

/-- Once the file of a kind was written, those of the others still can be. -/
theorem Reaches.exists_write (h : w.Reaches i b samples expected above base place (kind :: rest) d)
    (hcomplete : b.IsComplete samples expected kind) (content : String) :
    ∃ mid, d.write (w.pathOf i kind.id) content = .ok mid ∧
      d.Replaces mid place (resultFileName base kind.id) content ∧
      w.Reaches i b samples expected above base place rest mid := by
  obtain ⟨mid, hwrite⟩ := h.fits kind List.mem_cons_self hcomplete content
  obtain ⟨place', hwalk, hreplaces⟩ := Disk.replaces_of_write (h.splits kind List.mem_cons_self)
    (isName_resultFileName base kind.id) h.working hwrite
  obtain rfl : place' = place := Except.ok.inj (hwalk.symm.trans h.leads)
  have hsplits := (List.forall_mem_cons.mp h.splits).2
  have hworking := Disk.working_of_directories hreplaces.workingDirectory
    (fun _ => hreplaces.directories) h.working
  refine ⟨mid, hwrite, hreplaces, hworking, hsplits, ?_, fun k hk hother text => ?_⟩
  · rw [hreplaces.start_eq]
    exact hreplaces.walk_eq hwalk
  · exact hreplaces.exists_write (hsplits k hk) (isName_resultFileName base k.id)
      (h.fits k (List.mem_cons_of_mem _ hk) hother text)

theorem kindsPlaced_nil (d : Disk) : KindsPlaced i b samples expected base place [] d d :=
  ⟨fun _ h => absurd h List.not_mem_nil, fun _ _ => rfl⟩

theorem KindsPlaced.cons_of_incomplete (h : KindsPlaced i b samples expected base place rest d d')
    (hincomplete : ¬b.IsComplete samples expected kind) :
    KindsPlaced i b samples expected base place (kind :: rest) d d' where
  files := List.forall_mem_cons.mpr ⟨fun hcomplete => absurd hcomplete hincomplete, h.files⟩
  others other hother := h.others other (List.forall_mem_cons.mp hother).2

theorem KindsPlaced.cons_of_complete {mid : Disk} {record : ResultRecord}
    (h : KindsPlaced i b samples expected base place rest mid d')
    (hcomplete : b.IsComplete samples expected kind) (hrecord : b.IsRecord i samples kind record)
    (hreplaces : d.Replaces mid place (resultFileName base kind.id) record.text)
    (hnew : kind.id ∉ rest.map (·.id)) :
    KindsPlaced i b samples expected base place (kind :: rest) d d' where
  files := by
    refine List.forall_mem_cons.mpr ⟨fun _ => ⟨record, hrecord, ?_⟩, h.files⟩
    rw [h.others, hreplaces.file?_eq]
    intro k hk _ heq
    have hid : kind.id = k.id := resultFileName_inj.mp (by simpa using heq)
    exact hnew (hid ▸ List.mem_map_of_mem hk)
  others other hother := by
    obtain ⟨hne, hrest⟩ := List.forall_mem_cons.mp hother
    exact (h.others other hrest).trans (hreplaces.file?_of_ne (hne hcomplete))

/-- The complete ones of some kinds are written, whatever the others are. -/
theorem Reaches.persistKinds (hnumbers : b.FindsNumbers samples) (hexpected : 1 ≤ expected)
    (henabled : w.enabled) (hnodup : (kinds.map (·.id)).Nodup)
    (h : w.Reaches i b samples expected above base place kinds d) :
    ∃ d', d'.walk (d'.start above) (rawParts above) = .ok place ∧
      KindsPlaced i b samples expected base place kinds d d' ∧ ∀ written incomplete,
        w.persistKinds i b samples expected kinds written incomplete d =
          (concluded (written.reverse ++
              (kinds.filter (b.IsComplete samples expected ·)).map (w.pathOf i ·.id))
            (incomplete.or (b.firstShortfall? samples expected kinds)), d') := by
  induction kinds generalizing d with
  | nil =>
    refine ⟨d, h.leads, kindsPlaced_nil d, fun written incomplete => ?_⟩
    rw [persistKinds_nil, Benchmark.firstShortfall?_nil, Option.or_none, List.filter_nil,
      List.map_nil, List.append_nil]
  | cons kind rest ih =>
    obtain ⟨hnew, hnodup⟩ := List.nodup_cons.mp hnodup
    by_cases hcomplete : b.IsComplete samples expected kind
    · obtain ⟨values, record, hrecord, hvalues, hof⟩ :=
        hcomplete.exists_record hnumbers hexpected i
      obtain ⟨mid, hwrite, hreplaces, hreaches⟩ := h.exists_write hcomplete record.text
      obtain ⟨d', hwalk, hplaced, hrest⟩ := ih hnodup hreaches
      refine ⟨d', hwalk, hplaced.cons_of_complete hcomplete hrecord hreplaces hnew,
        fun written incomplete => ?_⟩
      rw [persistKinds_of_written henabled hvalues hof hwrite, hrest,
        Benchmark.firstShortfall?_cons_of_complete hcomplete, List.reverse_cons,
        List.filter_cons_of_pos (by simpa using hcomplete), List.map_cons, List.append_assoc]
      rfl
    · have hreaches : w.Reaches i b samples expected above base place rest d :=
        ⟨h.working, (List.forall_mem_cons.mp h.splits).2, h.leads,
          (List.forall_mem_cons.mp h.fits).2⟩
      obtain ⟨d', hwalk, hplaced, hrest⟩ := ih hnodup hreaches
      refine ⟨d', hwalk, hplaced.cons_of_incomplete hcomplete, fun written incomplete => ?_⟩
      rw [persistKinds_of_incomplete hcomplete, hrest, Option.or_assoc, Option.some_or,
        Benchmark.firstShortfall?_cons_of_incomplete hcomplete,
        List.filter_cons_of_neg (by simpa using hcomplete)]

/-! ## Names without slashes -/

/-- The results directory is at a place, and the file of each complete kind can be written. -/
structure Ready (w : ResultWriter) (i : Implementation) (b : Benchmark) (samples : Samples)
    (expected : Nat) (place : Place) (kinds : List ResultKind) (d : Disk) : Prop where
  working : d.entry? d.workingDirectory = some .directory
  leads : d.walk (d.start w.directory) (rawParts w.directory) = .ok place
  fits : ∀ kind ∈ kinds, b.IsComplete samples expected kind → ∀ content, ∃ after,
    d.write (w.pathOf i kind.id) content = .ok after

/-- The files of the complete ones of some kinds hold their records, and every other file is as
it was. -/
structure KindsWritten (i : Implementation) (b : Benchmark) (samples : Samples) (expected : Nat)
    (place : Place) (kinds : List ResultKind) (d d' : Disk) : Prop where
  files : ∀ kind ∈ kinds, b.IsComplete samples expected kind → ∃ record,
    b.IsRecord i samples kind record ∧
      d'.file? (place ++ [resultFileName i.fullName kind.id]) = some record.text
  others : ∀ other, (∀ kind ∈ kinds, b.IsComplete samples expected kind →
      other ≠ place ++ [resultFileName i.fullName kind.id]) →
    d'.file? other = d.file? other

/-- Files without slashes in their names are written into the results directory. -/
theorem Ready.persistKinds (hnumbers : b.FindsNumbers samples) (hexpected : 1 ≤ expected)
    (henabled : w.enabled) (hname : '/' ∉ i.fullName.toList)
    (hids : ∀ k ∈ kinds, '/' ∉ k.id.toList) (hnodup : (kinds.map (·.id)).Nodup)
    (h : w.Ready i b samples expected place kinds d) :
    ∃ d', d'.walk (d'.start w.directory) (rawParts w.directory) = .ok place ∧
      KindsWritten i b samples expected place kinds d d' ∧ ∀ written incomplete,
        w.persistKinds i b samples expected kinds written incomplete d =
          (concluded (written.reverse ++
              (kinds.filter (b.IsComplete samples expected ·)).map (w.pathOf i ·.id))
            (incomplete.or (b.firstShortfall? samples expected kinds)), d') := by
  have hway (d : Disk) :
      d.walk (d.start (joinPath w.directory "")) (rawParts (joinPath w.directory "")) =
        d.walk (d.start w.directory) (rawParts w.directory) := by
    rw [Disk.start_joinPath d _ rfl, Disk.rawParts_joinPath _ rfl]
    exact congrArg _ (List.append_nil _)
  have hsplits : ∀ kind ∈ kinds, Disk.SplitPath (w.pathOf i kind.id) (joinPath w.directory "")
      (resultFileName i.fullName kind.id) := fun kind hkind =>
    (Disk.SplitPath.of_slash_not_mem
      (slash_not_mem_resultFileName hname (hids kind hkind))).joinPath w.directory
  have hreaches : w.Reaches i b samples expected _ i.fullName place kinds d :=
    ⟨h.working, hsplits, (hway d).trans h.leads, h.fits⟩
  obtain ⟨d', hwalk, hplaced, hpersist⟩ :=
    hreaches.persistKinds hnumbers hexpected henabled hnodup
  exact ⟨d', (hway d').symm.trans hwalk, ⟨hplaced.files, hplaced.others⟩, hpersist⟩

/-! ## Persisting -/

/-- The file operations of persisting do not fail: the results directory can be made, and then
the file of each complete kind can be written. -/
def FilesFit (i : Implementation) (b : Benchmark) (samples : Samples) (expected : Nat)
    (directory : String) (d : Disk) : Prop :=
  ∃ made, d.createDirs directory = (.ok (), made) ∧
    ∀ kind ∈ b.resultKinds, b.IsComplete samples expected kind → ∀ content, ∃ after,
      made.write (joinPath directory (resultFileName i.fullName kind.id)) content = .ok after

theorem nodup_resultKinds (b : Benchmark) : (b.resultKinds.map (·.id)).Nodup := by
  cases b with
  | timed b => exact List.pairwise_singleton _ _
  | startup info =>
    change ((startupResults.map (·.1)).map (·.id)).Nodup
    decide

/-- An audit that reports when the page was interactive and how long it took to boot. -/
def partialAudit : Samples :=
  .startup [⟨some 800, some 20, none, none⟩]

/-- A disk with a result of an earlier audit. -/
def auditedDisk : Disk :=
  (Disk.empty []).set ["results", "vanillajs-keyed_34_startup-totalbytes.json"] (.file "1")

end ResultWriter

end PaintBench
