import PaintBench.Proofs.Results.Kinds

/-!
# Results at their paths

Result kinds are persisted one for one, whatever is in the names of their files. The path of a
complete kind leads to its record afterwards, that of an incomplete one to whatever was there
before, and no file is changed but those of the complete ones (`ResultWriter.persist_at_paths`). And
what is persisted depends on the values that are found for the kinds only
(`ResultWriter.persist_congr`).
-/

namespace PaintBench.ResultWriter

open Disk (SplitPath)

variable {w : ResultWriter} {i : Implementation} {b : Benchmark} {samples samples' : Samples}
  {expected : Nat} {d d' : Disk}

/-- The records of the complete ones of some kinds stand where their paths lead, and every other
file is as it was, also where the paths of the other kinds lead. -/
structure KindsAtPaths (w : ResultWriter) (i : Implementation) (b : Benchmark) (samples : Samples)
    (expected : Nat) (kinds : List ResultKind) (d d' : Disk) : Prop where
  written : ∀ kind ∈ kinds, b.IsComplete samples expected kind → ∃ record,
    b.IsRecord i samples kind record ∧ d'.read? (w.pathOf i kind.id) = some record.text
  kept : ∀ kind ∈ kinds, ¬b.IsComplete samples expected kind → ∀ place entry,
    d'.target (w.pathOf i kind.id) = .ok (place, entry) → d'.file? place = d.file? place
  others : ∀ place, d'.file? place ≠ d.file? place → ∃ kind ∈ kinds,
    b.IsComplete samples expected kind ∧
      d'.target (w.pathOf i kind.id) = .ok (place, d'.entry? place)

/-- The paths of all kinds are the same up to the names of the files, which begin alike. -/
theorem exists_splitPath_pathOf (w : ResultWriter) (i : Implementation) :
    ∃ above base, ∀ kindId : String, '/' ∉ kindId.toList →
      SplitPath (w.pathOf i kindId) above (resultFileName base kindId) := by
  obtain ⟨above, base, hsplit⟩ := Disk.exists_splitPath i.fullName
  refine ⟨joinPath w.directory above, base, fun kindId hslash => ?_⟩
  have hname : '/' ∉ ("_" ++ kindId ++ ".json").toList := by simp [hslash]
  have hfile := (hsplit.append hname).joinPath w.directory
  simpa only [pathOf, resultFileName, String.append_assoc] using hfile

/-- A record is read where a path leads to it. -/
theorem read?_of_target {path content : String} {place : Place}
    (h : d.target path = .ok (place, d.entry? place)) (hfile : d.file? place = some content) :
    d.read? path = some content := by
  rw [Disk.file?] at hfile
  split at hfile
  · next entry =>
    rw [Disk.read?, h, entry]
    exact hfile
  · cases hfile

/-- Kinds at a common place stand at their paths. -/
theorem KindsPlaced.kindsAtPaths {kinds : List ResultKind} {above base : String} {place : Place}
    (h : KindsPlaced i b samples expected base place kinds d d')
    (hsplits : ∀ kind ∈ kinds, SplitPath (w.pathOf i kind.id) above (resultFileName base kind.id))
    (hwalk : d'.walk (d'.start above) (rawParts above) = .ok place)
    (hpaths : ∀ kind ∈ kinds, b.IsComplete samples expected kind →
      pathFault? (w.pathOf i kind.id) = none ∧ nameFault? (resultFileName base kind.id) = none) :
    KindsAtPaths w i b samples expected kinds d d' := by
  have htarget : ∀ kind ∈ kinds, b.IsComplete samples expected kind →
      d'.target (w.pathOf i kind.id) = .ok (place ++ [resultFileName base kind.id],
        d'.entry? (place ++ [resultFileName base kind.id])) := by
    intro kind hkind hcomplete
    obtain ⟨hpath, hname⟩ := hpaths kind hkind hcomplete
    exact (Disk.target_iff (hsplits kind hkind) (isName_resultFileName base kind.id)).mpr
      ⟨hpath, hname, place, hwalk, rfl⟩
  refine ⟨fun kind hkind hcomplete => ?_, fun kind hkind hincomplete other entry hother => ?_,
    fun other hother => ?_⟩
  · obtain ⟨record, hrecord, hfile⟩ := h.files kind hkind hcomplete
    exact ⟨record, hrecord, read?_of_target (htarget kind hkind hcomplete) hfile⟩
  · obtain ⟨-, -, place', hwalk', heq⟩ :=
      (Disk.target_iff (hsplits kind hkind) (isName_resultFileName base kind.id)).mp hother
    obtain rfl : place' = place := Except.ok.inj (hwalk'.symm.trans hwalk)
    obtain ⟨rfl, -⟩ := Prod.mk.inj heq
    refine h.others _ fun k _ hcomplete heq => hincomplete ?_
    have hid : kind.id = k.id := resultFileName_inj.mp (by simpa using heq)
    exact ⟨hid ▸ hcomplete.length, hid ▸ hcomplete.present⟩
  · by_contra hnone
    push Not at hnone
    refine hother (h.others other fun kind hkind hcomplete heq => ?_)
    exact hnone kind hkind hcomplete (heq ▸ htarget kind hkind hcomplete)

/-- Making directories before does not count. -/
theorem KindsAtPaths.of_extends {kinds : List ResultKind} {made : Disk} (hextends : d.Extends made)
    (h : KindsAtPaths w i b samples expected kinds made d') :
    KindsAtPaths w i b samples expected kinds d d' := by
  obtain ⟨hwritten, hkept, hothers⟩ := h
  simp only [hextends.files] at hkept hothers
  exact ⟨hwritten, hkept, hothers⟩

/-- Without a complete kind nothing is written. -/
theorem persistKinds_of_none_complete {kinds : List ResultKind} {written : List String}
    {incomplete : Option (Soundness Float)}
    (h : ∀ kind ∈ kinds, ¬b.IsComplete samples expected kind) :
    w.persistKinds i b samples expected kinds written incomplete d =
      (concluded written.reverse
        (incomplete.or (b.firstShortfall? samples expected kinds)), d) := by
  induction kinds generalizing incomplete with
  | nil => rw [persistKinds_nil, Benchmark.firstShortfall?_nil, Option.or_none]
  | cons kind rest ih =>
    obtain ⟨hkind, hrest⟩ := List.forall_mem_cons.mp h
    rw [persistKinds_of_incomplete hkind, ih hrest, Option.or_assoc, Option.some_or,
      Benchmark.firstShortfall?_cons_of_incomplete hkind]

/-- Kinds are persisted at their paths where their files can be written. -/
theorem persistKinds_at_paths {kinds : List ResultKind}
    (hids : ∀ kind ∈ kinds, '/' ∉ kind.id.toList) (hnumbers : b.FindsNumbers samples)
    (hexpected : 1 ≤ expected) (henabled : w.enabled)
    (hnodup : (kinds.map (·.id)).Nodup) (hworking : d.entry? d.workingDirectory = some .directory)
    (hfits : ∀ kind ∈ kinds, b.IsComplete samples expected kind → ∀ content, ∃ after,
      d.write (w.pathOf i kind.id) content = .ok after) :
    ∃ paths d', w.persistKinds i b samples expected kinds [] none d =
        (concluded paths (b.firstShortfall? samples expected kinds), d') ∧
      KindsAtPaths w i b samples expected kinds d d' := by
  obtain ⟨above, base, hsplit⟩ := exists_splitPath_pathOf w i
  have hsplits : ∀ kind ∈ kinds, SplitPath (w.pathOf i kind.id) above
      (resultFileName base kind.id) := fun kind hkind => hsplit kind.id (hids kind hkind)
  have hwrite : ∀ kind ∈ kinds, b.IsComplete samples expected kind →
      pathFault? (w.pathOf i kind.id) = none ∧ nameFault? (resultFileName base kind.id) = none ∧
        ∃ place, d.walk (d.start above) (rawParts above) = .ok place := by
    intro kind hkind hcomplete
    obtain ⟨after, hafter⟩ := hfits kind hkind hcomplete ""
    obtain ⟨hpath, hname, place, hwalk, -⟩ :=
      (Disk.write_iff (hsplits kind hkind) (isName_resultFileName base kind.id)).mp hafter
    exact ⟨hpath, hname, place, hwalk⟩
  -- The place of the files is that of a complete kind. Without one it may not even exist.
  by_cases hsome : ∃ kind ∈ kinds, b.IsComplete samples expected kind
  · obtain ⟨kind, hkind, hcomplete⟩ := hsome
    obtain ⟨-, -, place, hleads⟩ := hwrite kind hkind hcomplete
    have hreaches : w.Reaches i b samples expected above base place kinds d :=
      ⟨hworking, hsplits, hleads, hfits⟩
    obtain ⟨d', hwalk, hplaced, hpersist⟩ :=
      hreaches.persistKinds hnumbers hexpected henabled hnodup
    refine ⟨_, d', hpersist [] none, hplaced.kindsAtPaths hsplits hwalk fun k hk hother => ?_⟩
    obtain ⟨hpath, hname, -⟩ := hwrite k hk hother
    exact ⟨hpath, hname⟩
  · push Not at hsome
    refine ⟨_, d, persistKinds_of_none_complete hsome, fun kind hkind hcomplete => ?_,
      fun _ _ _ _ _ _ => rfl, fun _ hplace => absurd rfl hplace⟩
    exact absurd hcomplete (hsome kind hkind)

/-- Kinds are persisted at their paths where the file operations do not fail, and the first
incomplete one is reported. -/
theorem persist_at_paths (directory : String) (hids : ∀ kind ∈ b.resultKinds, '/' ∉ kind.id.toList)
    (hnumbers : b.FindsNumbers samples) (hexpected : 1 ≤ expected)
    (hworking : d.entry? d.workingDirectory = some .directory)
    (hfits : FilesFit i b samples expected directory d) :
    ∃ paths d', persist ⟨directory, true⟩ i b samples expected d =
        (concluded paths (b.firstShortfall? samples expected b.resultKinds), d') ∧
      KindsAtPaths ⟨directory, true⟩ i b samples expected b.resultKinds d d' := by
  obtain ⟨made, hmade, hfits⟩ := hfits
  have hextends := Disk.extends_createDirs directory hworking
  rw [hmade] at hextends
  have hmadeWorking : made.entry? made.workingDirectory = some .directory :=
    Disk.working_of_directories hextends.workingDirectory hextends.directories hworking
  obtain ⟨paths, d', hpersist, hkinds⟩ := persistKinds_at_paths (w := ⟨directory, true⟩) hids
    hnumbers hexpected rfl (nodup_resultKinds b) hmadeWorking hfits
  refine ⟨paths, d', ?_, hkinds.of_extends hextends⟩
  rw [persist, if_pos rfl, hmade]
  exact hpersist

/-- What is persisted is a matter of the values that are found for the kinds. -/
theorem persistKinds_congr {kinds : List ResultKind}
    (h : ∀ kind ∈ kinds, b.extract samples' kind.id = b.extract samples kind.id)
    (written : List String) (incomplete : Option (Soundness Float)) (d : Disk) :
    w.persistKinds i b samples' expected kinds written incomplete d =
      w.persistKinds i b samples expected kinds written incomplete d := by
  induction kinds generalizing written incomplete d with
  | nil => cases incomplete <;> rfl
  | cons kind rest ih =>
    obtain ⟨hkind, hrest⟩ := List.forall_mem_cons.mp h
    simp only [persistKinds_cons, hkind, ih hrest]

theorem persist_congr (h : ∀ kind ∈ b.resultKinds, b.extract samples' kind.id =
      b.extract samples kind.id) (d : Disk) :
    w.persist i b samples' expected d = w.persist i b samples expected d := by
  simp only [persist, persistKinds_congr h]

end PaintBench.ResultWriter
