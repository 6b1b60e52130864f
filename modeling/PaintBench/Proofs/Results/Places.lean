import PaintBench.Proofs.Results.Persist

/-!
# Places of result files

The name of a result file is the name of an implementation and that of a result kind, which may
have slashes in them. So a file lies where its name leads from the results directory, or from the
root (`ResultWriter.files_lie_where_names_lead`): in the results directory if there are no slashes,
and else maybe not (`ResultWriter.file_beside_results`).
-/

namespace PaintBench

namespace Disk

variable {d d' d'' : Disk} {path above name : String} {paths : List String}

/-- A path leads to the same place where the directories are still there. -/
theorem target_of_directories (hworking : d'.workingDirectory = d.workingDirectory)
    (hdirectories : ∀ place, d.entry? place = some .directory → d'.entry? place = some .directory)
    (hsplit : SplitPath path above name) (hname : IsName name) {place : Place}
    {entry : Option DiskEntry} (h : d.target path = .ok (place, entry)) :
    d'.target path = .ok (place, d'.entry? place) := by
  obtain ⟨hpath, hfits, directory, hwalk, heq⟩ := (target_iff hsplit hname).mp h
  cases heq
  refine (target_iff hsplit hname).mpr ⟨hpath, hfits, directory, ?_, rfl⟩
  rw [start_congr hworking]
  exact walk_of_directories hdirectories hwalk

/-- A path that is joined to a directory leads on from there, or from the root. -/
theorem walk_joinPath {directory : String} {place : Place}
    (h : d.walk (d.start directory) (rawParts directory) = .ok place) (path : String) :
    d.walk (d.start (joinPath directory path)) (rawParts (joinPath directory path)) =
      d.walk (if isAbsolute path then [] else place) (rawParts path) := by
  cases habsolute : isAbsolute path with
  | true =>
    rw [joinPath_of_isAbsolute directory habsolute, start, habsolute]
    rfl
  | false =>
    rw [start_joinPath d directory habsolute, rawParts_joinPath directory habsolute, walk_append, h]
    rfl

theorem SplitPath.above_eq_empty (h : SplitPath path above name) (hslash : '/' ∉ path.toList) :
    above = "" := by
  obtain ⟨rfl, hends, -⟩ := h
  refine hends.resolve_right fun hends => hslash ?_
  rw [String.toList_append]
  exact List.mem_append_left _ (List.mem_of_getLast? (decide_eq_true_eq.mp hends))

theorem Replaces.file?_ne {place : Place} {content : String}
    (h : d.Replaces d' place name content) (hnew : d.file? (place ++ [name]) = none) :
    d'.file? (place ++ [name]) ≠ d.file? (place ++ [name]) := by
  rw [h.file?_eq, hnew]
  nofun

/-- A path with a name at its end. -/
def Named (path : String) : Prop :=
  ∃ above name, SplitPath path above name ∧ IsName name

/-- No files changed but those where some paths lead, and all directories are still there. -/
structure ChangesOnly (paths : List String) (d d' : Disk) : Prop where
  workingDirectory : d'.workingDirectory = d.workingDirectory
  directories : ∀ place, d.entry? place = some .directory → d'.entry? place = some .directory
  files : ∀ place, d'.file? place ≠ d.file? place →
    ∃ path ∈ paths, ∃ entry, d'.target path = .ok (place, entry)

theorem Extends.changesOnly (h : d.Extends d') (paths : List String) : ChangesOnly paths d d' :=
  ⟨h.workingDirectory, h.directories, fun place hplace => absurd (h.files place) hplace⟩

theorem ChangesOnly.trans (hnamed : ∀ path ∈ paths, Named path) (h : ChangesOnly paths d d')
    (h' : ChangesOnly paths d' d'') : ChangesOnly paths d d'' where
  workingDirectory := h'.workingDirectory.trans h.workingDirectory
  directories place hplace := h'.directories place (h.directories place hplace)
  files place hplace := by
    by_cases hlater : d''.file? place = d'.file? place
    · obtain ⟨path, hpath, entry, htarget⟩ := h.files place (hlater ▸ hplace)
      obtain ⟨above, name, hsplit, hname⟩ := hnamed path hpath
      exact ⟨path, hpath, _,
        target_of_directories h'.workingDirectory h'.directories hsplit hname htarget⟩
    · exact h'.files place hlater

theorem changesOnly_of_write (hnamed : Named path) (hpath : path ∈ paths)
    (hworking : d.entry? d.workingDirectory = some .directory) {content : String}
    (h : d.write path content = .ok d') : ChangesOnly paths d d' := by
  obtain ⟨above, name, hsplit, hname⟩ := hnamed
  obtain ⟨place, hwalk, hreplaces⟩ := replaces_of_write hsplit hname hworking h
  refine ⟨hreplaces.workingDirectory, fun _ => hreplaces.directories, fun other hother => ?_⟩
  obtain rfl : other = place ++ [name] := by_contra fun hne => hother (hreplaces.file?_of_ne hne)
  obtain ⟨hfits, hlimit, -⟩ := (write_iff hsplit hname).mp h
  refine ⟨path, hpath, _, (target_iff hsplit hname).mpr ⟨hfits, hlimit, place, ?_, rfl⟩⟩
  rw [hreplaces.start_eq]
  exact hreplaces.walk_eq hwalk

end Disk

open Disk (ChangesOnly IsName Named SplitPath)

theorem exists_splitPath_resultFileName (fullName kindId : String) :
    ∃ above name, SplitPath (resultFileName fullName kindId) above name ∧ IsName name := by
  obtain ⟨above, base, hsplit⟩ := Disk.exists_splitPath (fullName ++ "_" ++ kindId)
  refine ⟨above, base ++ ".json", hsplit.append (by decide), ?_⟩
  have hlength : 5 ≤ (base ++ ".json").length := by
    rw [String.length_append]
    exact Nat.le_add_left 5 _
  refine ⟨?_, ?_, ?_⟩ <;> intro h <;> rw [h] at hlength <;> exact absurd hlength (by decide)

namespace ResultWriter

variable {w : ResultWriter} {i : Implementation} {b : Benchmark} {samples : Samples}
  {expected : Nat} {d : Disk}

theorem named_pathOf (w : ResultWriter) (i : Implementation) (kindId : String) :
    Named (w.pathOf i kindId) := by
  obtain ⟨above, name, hsplit, hname⟩ := exists_splitPath_resultFileName i.fullName kindId
  exact ⟨_, name, hsplit.joinPath w.directory, hname⟩

/-- Kinds are written where their paths lead. -/
theorem changesOnly_persistKinds {paths : List String} {kinds : List ResultKind}
    (hpaths : ∀ kind ∈ kinds, w.pathOf i kind.id ∈ paths) (hnamed : ∀ path ∈ paths, Named path)
    (hworking : d.entry? d.workingDirectory = some .directory) (written : List String)
    (incomplete : Option (Soundness Float)) :
    ChangesOnly paths d (w.persistKinds i b samples expected kinds written incomplete d).2 := by
  induction kinds generalizing written incomplete d with
  | nil => cases incomplete <;> exact (Disk.Extends.refl d).changesOnly paths
  | cons kind rest ih =>
    obtain ⟨hpath, hrest⟩ := List.forall_mem_cons.mp hpaths
    rw [persistKinds_cons]
    split
    · exact ih hrest hworking _ _
    · split
      · exact (Disk.Extends.refl d).changesOnly paths
      · exact ih hrest hworking _ _
      · split
        · split
          · exact (Disk.Extends.refl d).changesOnly paths
          · next mid hwrite =>
            have hmid := Disk.changesOnly_of_write (named_pathOf w i kind.id) hpath hworking hwrite
            have hmidWorking : mid.entry? mid.workingDirectory = some .directory :=
              Disk.working_of_directories hmid.workingDirectory hmid.directories hworking
            exact hmid.trans hnamed (ih hrest hmidWorking _ _)
        · exact ih hrest hworking _ _

/-- Without writing the disk stays as it is. -/
theorem persistKinds_disk_of_disabled (hdisabled : w.enabled = false) (kinds : List ResultKind)
    (written : List String) (incomplete : Option (Soundness Float)) :
    (w.persistKinds i b samples expected kinds written incomplete d).2 = d := by
  induction kinds generalizing incomplete with
  | nil => cases incomplete <;> rfl
  | cons kind rest ih =>
    rw [persistKinds_cons]
    split
    · exact ih _
    · split
      · rfl
      · exact ih _
      · rw [if_neg (by simp [hdisabled])]
        exact ih _

/-- Persisting changes files only where the paths of the result kinds lead, and only if the results
directory is there then. -/
theorem changesOnly_persist (hworking : d.entry? d.workingDirectory = some .directory)
    (henabled : w.enabled) :
    (∀ place, (w.persist i b samples expected d).2.file? place = d.file? place) ∨
      (ChangesOnly (b.resultKinds.map fun kind => w.pathOf i kind.id) d
          (w.persist i b samples expected d).2 ∧
        ∃ results, Disk.walk (w.persist i b samples expected d).2
          (Disk.start (w.persist i b samples expected d).2 w.directory) (rawParts w.directory) =
            .ok results) := by
  have hextends := Disk.extends_createDirs w.directory hworking
  rw [persist, if_pos henabled]
  split
  · next hmade =>
    rw [hmade] at hextends
    exact .inl hextends.files
  · next made hmade =>
    rw [hmade] at hextends
    have hmadeWorking : made.entry? made.workingDirectory = some .directory :=
      Disk.working_of_directories hextends.workingDirectory hextends.directories hworking
    have hnamed : ∀ path ∈ b.resultKinds.map fun kind => w.pathOf i kind.id, Named path := by
      intro path hpath
      obtain ⟨kind, -, rfl⟩ := List.mem_map.mp hpath
      exact named_pathOf w i kind.id
    have hpaths : ∀ kind ∈ b.resultKinds,
        w.pathOf i kind.id ∈ b.resultKinds.map fun kind => w.pathOf i kind.id :=
      fun kind hkind => List.mem_map.mpr ⟨kind, hkind, rfl⟩
    have hkinds : ChangesOnly (b.resultKinds.map fun kind => w.pathOf i kind.id) made
        (w.persistKinds i b samples expected b.resultKinds [] none made).2 :=
      changesOnly_persistKinds hpaths hnamed hmadeWorking [] none
    refine .inr ⟨(hextends.changesOnly _).trans hnamed hkinds, ?_⟩
    obtain ⟨results, hwalk⟩ := Disk.exists_walk_of_createDirs hworking hmade
    refine ⟨results, ?_⟩
    rw [Disk.start_congr (hkinds.workingDirectory.trans hextends.workingDirectory)]
    exact Disk.walk_of_directories hkinds.directories hwalk

/-- Every file that is written lies where the name of a result file leads: behind the last slash of
the name, in the directory that the part before it leads to from the results directory, or from the
root if the name starts there. Without slashes in the names that is the results directory, and with
writing off no file is written. -/
theorem files_lie_where_names_lead (w : ResultWriter) (i : Implementation) (b : Benchmark)
    (samples : Samples) (expected : Nat) (d : Disk)
    (hworking : d.entry? d.workingDirectory = some .directory) :
    let after := (w.persist i b samples expected d).2
    (w.enabled = false → after = d) ∧
    ∀ place, after.file? place ≠ d.file? place → ∃ results,
      after.walk (after.start w.directory) (rawParts w.directory) = .ok results ∧
      (∃ kind ∈ b.resultKinds, ∃ above name directory,
        SplitPath (resultFileName i.fullName kind.id) above name ∧
        after.walk (if isAbsolute above then [] else results) (rawParts above) = .ok directory ∧
        place = directory ++ [name]) ∧
      ('/' ∉ i.fullName.toList → (∀ kind ∈ b.resultKinds, '/' ∉ kind.id.toList) →
        ∃ child, place = results ++ [child]) := by
  intro after
  cases henabled : w.enabled with
  | false =>
    have hsame : after = d := by
      change (w.persist i b samples expected d).2 = d
      rw [persist, if_neg (by simp [henabled])]
      exact persistKinds_disk_of_disabled henabled _ _ _
    exact ⟨fun _ => hsame, fun place hplace => absurd (by rw [hsame]) hplace⟩
  | true =>
    refine ⟨by simp, fun place hplace => ?_⟩
    obtain hsame | ⟨hchanges, results, hresults⟩ := changesOnly_persist hworking henabled
    · exact absurd (hsame place) hplace
    obtain ⟨path, hpath, entry, htarget⟩ := hchanges.files place hplace
    obtain ⟨kind, hkind, rfl⟩ := List.mem_map.mp hpath
    obtain ⟨above, name, hsplit, hname⟩ := exists_splitPath_resultFileName i.fullName kind.id
    obtain ⟨-, -, directory, hwalk, heq⟩ :=
      (Disk.target_iff (hsplit.joinPath w.directory) hname).mp htarget
    obtain rfl : place = directory ++ [name] := (Prod.mk.inj heq).1
    have hdirectory : after.walk (if isAbsolute above then [] else results) (rawParts above) =
        .ok directory := (Disk.walk_joinPath hresults above).symm.trans hwalk
    refine ⟨results, hresults, ⟨kind, hkind, above, name, directory, hsplit, hdirectory, rfl⟩,
      fun hfullName hids => ⟨name, ?_⟩⟩
    obtain rfl : above = "" :=
      hsplit.above_eq_empty (slash_not_mem_resultFileName hfullName (hids kind hkind))
    obtain rfl : results = directory := Except.ok.inj hdirectory
    rfl

/-- A single sample of a timed benchmark leaves a file where its path leads, if the results
directory is there. -/
theorem exists_replaces_of_singleton {b : TimedBenchmark} {a : Float} (ha : a ≤ a)
    (henabled : w.enabled) (hworking : d.entry? d.workingDirectory = some .directory)
    (hmade : d.createDirs w.directory = (.ok (), d)) (above : String) {name : String}
    {directory : Place} (hsplit : SplitPath (w.pathOf i b.info.id) above name) (hname : IsName name)
    (hfits : pathFault? (w.pathOf i b.info.id) = none ∧ nameFault? name = none)
    (hwalk : d.walk (d.start above) (rawParts above) = .ok directory)
    (hfree : d.entry? (directory ++ [name]) ≠ some .directory) :
    ∃ text, d.Replaces (w.persist i (.timed b) (.timed [a]) 1 d).2 directory name text := by
  obtain ⟨record, hrecord⟩ := ResultRecord.exists_of_singleton ha i b.info.resultKind
  have hwrite : d.write (w.pathOf i b.info.id) record.text =
      .ok (d.set (directory ++ [name]) (.file record.text)) :=
    (Disk.write_iff hsplit hname).mpr ⟨hfits.1, hfits.2, directory, hwalk, hfree, rfl⟩
  have hpersist : w.persist i (.timed b) (.timed [a]) 1 d = (.written [w.pathOf i b.info.id], _) :=
    persist_eq_written henabled hmade hrecord hwrite
  obtain ⟨directory', hwalk', hreplaces⟩ := Disk.replaces_of_write hsplit hname hworking hwrite
  obtain rfl : directory' = directory := Except.ok.inj (hwalk'.symm.trans hwalk)
  rw [hpersist]
  exact ⟨record.text, hreplaces⟩

/-- A benchmark that creates rows. -/
def createRows : TimedBenchmark :=
  ⟨⟨"01_run1k", "create rows", "", .cpu, none⟩, [], [], []⟩

/-- A disk with an empty results directory. -/
def emptyResults : Disk :=
  (Disk.empty []).set ["results"] .empty

/-- What becomes of it when a sample of the benchmark is persisted. -/
def rowsCreated (name : String) : Disk :=
  (persist ⟨"results", true⟩ (.plain name "keyed/rows" true none) (.timed createRows) (.timed [45])
    1 emptyResults).2

theorem exists_replaces_plainly : ∃ text, emptyResults.Replaces (rowsCreated "vanillajs")
    ["results"] "vanillajs-keyed_01_run1k.json" text :=
  exists_replaces_of_singleton (b := createRows) (by decide) rfl rfl rfl "results/"
    ⟨by decide, .inr (by decide), by decide⟩ ⟨by decide, by decide, by decide⟩ (by decide +kernel)
    (by decide +kernel) (by decide +kernel)

theorem exists_replaces_outside : ∃ text, emptyResults.Replaces (rowsCreated "../escape")
    [] "escape-keyed_01_run1k.json" text :=
  exists_replaces_of_singleton (b := createRows) (by decide) rfl rfl rfl "results/../"
    ⟨by decide, .inr (by decide), by decide⟩ ⟨by decide, by decide, by decide⟩ (by decide +kernel)
    (by decide +kernel) (by decide +kernel)

/-- A file in the results directory, and one of a name that leads into it and out again. -/
theorem files_lie_where_names_lead_createRows :
    (∃ results child, ["results", "vanillajs-keyed_01_run1k.json"] = results ++ [child]) ∧
      ∃ above name directory, SplitPath "../escape-keyed_01_run1k.json" above name ∧
        ["escape-keyed_01_run1k.json"] = directory ++ [name] := by
  constructor
  · obtain ⟨text, hreplaces⟩ := exists_replaces_plainly
    obtain ⟨-, hlie⟩ := files_lie_where_names_lead ⟨"results", true⟩
      (.plain "vanillajs" "keyed/rows" true none) (.timed createRows) (.timed [45]) 1
      emptyResults rfl
    obtain ⟨results, -, -, hdirect⟩ := hlie _ (hreplaces.file?_ne (by decide +kernel))
    exact ⟨results, hdirect (by decide) (by decide)⟩
  · obtain ⟨text, hreplaces⟩ := exists_replaces_outside
    obtain ⟨-, hlie⟩ := files_lie_where_names_lead ⟨"results", true⟩
      (.plain "../escape" "keyed/rows" true none) (.timed createRows) (.timed [45]) 1
      emptyResults rfl
    obtain ⟨results, -, ⟨kind, hkind, above, name, directory, hsplit, -, hplace⟩, -⟩ :=
      hlie _ (hreplaces.file?_ne (by decide +kernel))
    obtain rfl := List.mem_singleton.mp hkind
    exact ⟨above, name, directory, hsplit, hplace⟩

/-- A file of a name that leads out of the results directory. -/
theorem file_beside_results :
    let after := rowsCreated "../escape"
    after.walk (after.start "results") (rawParts "results") = .ok ["results"] ∧
      emptyResults.file? ["escape-keyed_01_run1k.json"] = none ∧
      (∃ text, after.file? ["escape-keyed_01_run1k.json"] = some text) ∧
      ¬∃ child, ["escape-keyed_01_run1k.json"] = ["results"] ++ [child] := by
  obtain ⟨text, hreplaces⟩ := exists_replaces_outside
  refine ⟨?_, by decide +kernel, ⟨text, hreplaces.file?_eq⟩, by simp⟩
  rw [hreplaces.start_eq]
  exact hreplaces.walk_eq (by decide +kernel)

end ResultWriter

end PaintBench
