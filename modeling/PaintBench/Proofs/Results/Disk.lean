import PaintBench.Proofs.Result
import PaintBench.Proofs.Text.Lines
import PaintBench.Results.Disk

/-!
# What writing leaves alone

Making directories changes no file (`Disk.extends_createDirs`). Writing a file in a directory
changes what stands at its place and nothing else (`Disk.replaces_of_write`). The place is that of
the name behind the last slash of a path, in the directory where the rest leads (`Disk.SplitPath`).
-/

namespace PaintBench

namespace FileTree

/-- What a tree is at its top. -/
def entry : FileTree → DiskEntry
  | file content => .file content
  | directory _ => .directory

theorem find?_append (place rest : Place) (t : FileTree) :
    find? (place ++ rest) t = (find? place t).bind (find? rest) := by
  induction place generalizing t with
  | nil => rfl
  | cons name place ih =>
    rw [List.cons_append, find?, find?, Option.bind_assoc]
    exact Option.bind_congr fun u _ => ih u

theorem find?_of_entries_eq_nil {t : FileTree} (h : t.entries = []) {place : Place}
    (hplace : place ≠ []) : find? place t = none := by
  cases place with
  | nil => exact absurd rfl hplace
  | cons name rest => rw [find?, h]; rfl

/-- What has entries is a directory. -/
theorem entry_of_lookup {name : String} {t u : FileTree} (h : lookup name t.entries = some u) :
    t.entry = .directory := by
  cases t with
  | file content => cases h
  | directory entries => rfl

/-- Putting something without entries into a directory, where there was nothing with entries,
changes what stands at its place and nothing else. -/
theorem entry_find?_put_of_ne {new : FileTree} {name : String} (hnew : new.entries = [])
    {place other : Place} (hne : other ≠ place ++ [name]) {t : FileTree}
    (hdirectory : (find? place t).map entry = some .directory)
    (hold : ∀ u, find? (place ++ [name]) t = some u → u.entries = []) :
    (find? other (put new (place ++ [name]) t)).map entry = (find? other t).map entry := by
  induction place generalizing t other with
  | nil =>
    have htop : t.entry = .directory := by simpa [find?] using hdirectory
    cases other with
    | nil => exact congrArg some htop.symm
    | cons first rest =>
      rw [List.nil_append, put, find?, find?, entries, lookup_withEntry]
      split
      · next hname =>
        subst hname
        have hrest : rest ≠ [] := fun hrest => hne (by rw [hrest, List.nil_append])
        rw [put, Option.bind_some, find?_of_entries_eq_nil hnew hrest]
        cases hlookup : lookup name t.entries with
        | none => rfl
        | some u =>
          have hu : u.entries = [] := hold u (by simp [find?, hlookup])
          rw [Option.bind_some, find?_of_entries_eq_nil hu hrest]
      · rfl
  | cons first place ih =>
    rw [find?] at hdirectory
    obtain ⟨u, hlookup⟩ : ∃ u, lookup first t.entries = some u := by
      cases hlookup : lookup first t.entries with
      | none => simp [hlookup] at hdirectory
      | some u => exact ⟨u, rfl⟩
    rw [hlookup, Option.bind_some] at hdirectory
    cases other with
    | nil => exact congrArg some (entry_of_lookup hlookup).symm
    | cons head rest =>
      rw [List.cons_append, put, find?, find?, entries, lookup_withEntry, hlookup]
      split
      · next hname =>
        subst hname
        rw [Option.bind_some, Option.getD_some, hlookup, Option.bind_some]
        refine ih (fun heq => hne (by rw [heq, List.cons_append])) hdirectory fun v hv => hold v ?_
        rw [List.cons_append, find?, hlookup, Option.bind_some, hv]
      · rfl

end FileTree

namespace Disk

variable {d d' : Disk} {place other : Place} {name path content : String}

/-- The content of the file at a place. -/
def file? (d : Disk) (place : Place) : Option String :=
  match d.entry? place with
  | some (.file content) => some content
  | _ => none

theorem entry?_eq (d : Disk) (place : Place) :
    d.entry? place = (d.root.find? place).map FileTree.entry := by
  rw [ entry?]
  congr 1

/-- Above a directory there are directories. -/
theorem entry?_of_append {rest : Place} (h : d.entry? (place ++ rest) = some .directory) :
    d.entry? place = some .directory := by
  cases rest with
  | nil => simpa using h
  | cons name rest =>
    rw [entry?_eq, FileTree.find?_append] at h
    cases hplace : d.root.find? place with
    | none => simp [hplace] at h
    | some t =>
      rw [hplace, Option.bind_some, FileTree.find?] at h
      cases hlookup : FileTree.lookup name t.entries with
      | none => simp [hlookup] at h
      | some u => rw [entry?_eq, hplace, Option.map_some, FileTree.entry_of_lookup hlookup]

theorem entry?_dropLast (h : d.entry? place = some .directory) :
    d.entry? place.dropLast = some .directory := by
  rcases List.eq_nil_or_concat place with rfl | ⟨above, name, rfl⟩
  · exact h
  · rw [List.concat_eq_append] at h ⊢
    rw [List.dropLast_concat]
    exact entry?_of_append h

theorem entry?_set (d : Disk) (place : Place) (t : FileTree) :
    Disk.entry? (d.set place t) place = some t.entry := by
  rw [entry?_eq, set, FileTree.find?_put, Option.map_some]

/-- What is put into a directory in place of no directory changes no other place. -/
theorem entry?_set_of_ne {t : FileTree} (hdirectory : d.entry? place = some .directory)
    (ht : t.entries = []) (hold : d.entry? (place ++ [name]) ≠ some .directory)
    (hne : other ≠ place ++ [name]) :
    Disk.entry? (d.set (place ++ [name]) t) other = d.entry? other := by
  rw [entry?_eq] at hdirectory hold
  rw [entry?_eq, entry?_eq, set]
  refine FileTree.entry_find?_put_of_ne ht hne hdirectory fun u hu => ?_
  cases u with
  | file content => rfl
  | directory entries => exact absurd (by rw [hu]; rfl) hold

/-! ## Making directories -/

/-- A disk has the same files and maybe more directories. -/
structure Extends (d d' : Disk) : Prop where
  workingDirectory : d'.workingDirectory = d.workingDirectory
  directories : ∀ place, d.entry? place = some .directory → d'.entry? place = some .directory
  files : ∀ place, d'.file? place = d.file? place

/-- The working directory is still there if all directories are. -/
theorem working_of_directories (hworking : d'.workingDirectory = d.workingDirectory)
    (hdirectories : ∀ place, d.entry? place = some .directory → d'.entry? place = some .directory)
    (h : d.entry? d.workingDirectory = some .directory) :
    d'.entry? d'.workingDirectory = some .directory := by
  rw [hworking]
  exact hdirectories _ h

theorem Extends.refl (d : Disk) : d.Extends d :=
  ⟨rfl, fun _ => id, fun _ => rfl⟩

theorem Extends.trans {d'' : Disk} (h : d.Extends d') (h' : d'.Extends d'') : d.Extends d'' :=
  ⟨h'.workingDirectory.trans h.workingDirectory,
    fun place hplace => h'.directories place (h.directories place hplace),
    fun place => (h'.files place).trans (h.files place)⟩

theorem extends_set_empty (hdirectory : d.entry? place = some .directory)
    (hmissing : d.entry? (place ++ [name]) = none) :
    d.Extends (d.set (place ++ [name]) .empty) := by
  have hold : d.entry? (place ++ [name]) ≠ some .directory := by
    rw [hmissing]
    nofun
  have hother {other : Place} (hne : other ≠ place ++ [name]) :
      Disk.entry? (d.set (place ++ [name]) .empty) other = d.entry? other :=
    entry?_set_of_ne hdirectory rfl hold hne
  refine ⟨rfl, fun other h => ?_, fun other => ?_⟩
  · rw [hother fun heq => hold (heq ▸ h)]
    exact h
  · by_cases hne : other = place ++ [name]
    · rw [hne, file?, file?, entry?_set, hmissing]
      rfl
    · rw [file?, file?, hother hne]

theorem extends_makeWay (fresh : Bool) (names : List String)
    (h : d.entry? place = some .directory) : d.Extends (d.makeWay place fresh names).2 := by
  fun_induction makeWay d place fresh names with
  | case1 => exact .refl _
  | case2 d place fresh rest ih => exact ih (entry?_dropLast h)
  | case3 => exact .refl _
  | case4 d place fresh name rest _ hmissing _ ih =>
    exact (extends_set_empty h hmissing).trans (ih (entry?_set _ _ _))
  | case5 d place fresh name rest _ hdirectory _ ih => exact ih hdirectory
  | case6 => exact .refl _

theorem start_congr (h : d'.workingDirectory = d.workingDirectory) (path : String) :
    d'.start path = d.start path := by
  rw [start, start, h]

theorem entry?_start (path : String) (h : d.entry? d.workingDirectory = some .directory) :
    d.entry? (d.start path) = some .directory := by
  unfold start
  split
  · exact entry?_of_append (by simpa using h)
  · exact h

/-- Making directories changes no file, whether or not it succeeds. -/
theorem extends_createDirs (path : String)
    (h : d.entry? d.workingDirectory = some .directory) : d.Extends (d.createDirs path).2 := by
  have horigin := entry?_start path h
  unfold createDirs
  dsimp only
  split
  · exact .refl d
  · split
    · split
      · exact .refl d
      · exact extends_makeWay false (pathParts path).dropLast horigin
      · exact .refl d
    · exact extends_makeWay false (pathParts path) horigin

/-! ## Walking -/

/-- A walk from a directory leads to a directory. -/
theorem entry?_of_walk {names : List String} {result : Place}
    (h : d.entry? place = some .directory) (hwalk : d.walk place names = .ok result) :
    d.entry? result = some .directory := by
  fun_induction walk d place names with
  | case1 => cases hwalk; exact h
  | case2 place rest ih => exact ih h hwalk
  | case3 place rest ih => exact ih (entry?_dropLast h) hwalk
  | case4 | case5 | case6 => cases hwalk
  | case7 place name rest _ _ hdirectory _ ih => exact ih hdirectory hwalk

/-- A walk leads to the same place where the directories are still there. -/
theorem walk_of_directories
    (h : ∀ place, d.entry? place = some .directory → d'.entry? place = some .directory)
    {names : List String} {result : Place} (hwalk : d.walk place names = .ok result) :
    d'.walk place names = .ok result := by
  fun_induction walk d place names with
  | case1 => exact hwalk
  | case2 place rest ih => exact ih hwalk
  | case3 place rest ih => exact ih hwalk
  | case4 | case5 | case6 => cases hwalk
  | case7 place name rest hdot hdots hdirectory hfault ih =>
    rw [walk, hfault, h _ hdirectory]
    · exact ih hwalk
    · exact hdot
    · exact hdots

theorem walk_cons (d : Disk) (place : Place) (name : String) (rest : List String) :
    d.walk place (name :: rest) = d.walk place [name] >>= (d.walk · rest) := by
  by_cases hdot : name = "."
  · subst hdot
    rfl
  by_cases hdots : name = ".."
  · subst hdots
    rfl
  simp only [walk]
  cases nameFault? name with
  | some fault => rfl
  | none => obtain _ | _ | _ := d.entry? (place ++ [name]) <;> rfl

theorem walk_append (d : Disk) (place : Place) (names later : List String) :
    d.walk place (names ++ later) = d.walk place names >>= (d.walk · later) := by
  induction names generalizing place with
  | nil => rfl
  | cons name names ih =>
    rw [List.cons_append, walk_cons, walk_cons d place name names, bind_assoc]
    exact congrArg _ (funext ih)

/-- Single dots lead nowhere else. -/
theorem walk_pathParts (d : Disk) (place : Place) (path : String) :
    d.walk place (pathParts path) = d.walk place (rawParts path) := by
  rw [pathParts]
  induction rawParts path generalizing place with
  | nil => rfl
  | cons name names ih =>
    rw [walk_cons d place name names, List.filter_cons]
    split
    · rw [walk_cons]
      exact congrArg _ (funext ih)
    · next hdot =>
      obtain rfl : name = "." := by simpa using hdot
      exact ih place

/-- A name leads on to a directory that was not left by making a way from there. -/
theorem walk_cons_of_makeWay {fresh : Bool} {rest : List String} {made : Disk} {result : Place}
    (hname : nameFault? name = none) (hdot : name ≠ ".") (hdots : name ≠ "..")
    (h : d.entry? (place ++ [name]) = some .directory)
    (hmade : d.makeWay (place ++ [name]) fresh rest = (.ok result, made))
    (hrest : made.walk (place ++ [name]) rest = .ok result) :
    made.walk place (name :: rest) = .ok result := by
  have hentry := (extends_makeWay fresh rest h).directories _ h
  rw [hmade] at hentry
  rw [walk, hname, hentry]
  · exact hrest
  · exact hdot
  · exact hdots

/-- The names of directories that were made lead there. -/
theorem walk_of_makeWay {fresh : Bool} {names : List String} {made : Disk} {result : Place}
    (h : d.entry? place = some .directory) (hdot : "." ∉ names)
    (hmade : d.makeWay place fresh names = (.ok result, made)) :
    made.walk place names = .ok result := by
  fun_induction makeWay d place fresh names with
  | case1 =>
    cases hmade
    rfl
  | case2 d place fresh rest ih =>
    exact ih (entry?_dropLast h) (List.not_mem_of_not_mem_cons hdot) hmade
  | case3 => cases hmade
  | case4 d place fresh name rest hdots hmissing hname ih =>
    have hentry := entry?_set d (place ++ [name]) .empty
    exact walk_cons_of_makeWay hname (List.ne_of_not_mem_cons hdot).symm hdots hentry hmade
      (ih hentry (List.not_mem_of_not_mem_cons hdot) hmade)
  | case5 d place fresh name rest hdots hdirectory hname ih =>
    exact walk_cons_of_makeWay hname (List.ne_of_not_mem_cons hdot).symm hdots hdirectory hmade
      (ih hdirectory (List.not_mem_of_not_mem_cons hdot) hmade)
  | case6 => cases hmade

/-- The path of a directory that was made leads to it. -/
theorem exists_walk_of_createDirs {made : Disk}
    (hworking : d.entry? d.workingDirectory = some .directory)
    (h : d.createDirs path = (.ok (), made)) :
    ∃ result, made.walk (d.start path) (rawParts path) = .ok result := by
  have horigin := entry?_start path hworking
  have hdot : "." ∉ pathParts path := by simp [pathParts]
  simp only [← walk_pathParts]
  unfold createDirs at h
  dsimp only at h
  split at h
  · cases h
  split at h
  · split at h
    · next result hwalk =>
      cases h
      exact ⟨result, hwalk⟩
    · obtain ⟨⟨way, above⟩, hway⟩ : ∃ p, d.makeWay (d.start path) false
        (pathParts path).dropLast = p := ⟨_, rfl⟩
      rw [hway] at h
      obtain ⟨hok, rfl⟩ := Prod.mk.inj h
      obtain ⟨place, rfl, hlast⟩ := bind_eq_ok_iff.mp hok
      obtain ⟨result, hresult⟩ := exists_of_map_eq_ok hlast
      have habove := walk_of_makeWay horigin (fun h => hdot (List.dropLast_subset _ h)) hway
      have hnames : (pathParts path).dropLast ++ (pathParts path).getLast?.toList =
          pathParts path := by
        rcases List.eq_nil_or_concat (pathParts path) with hnil | ⟨_, _, hconcat⟩
        · simp [hnil]
        · simp [hconcat]
      refine ⟨result, ?_⟩
      rw [← hnames, walk_append, habove]
      exact hresult
    · cases h
  · obtain ⟨⟨way, made'⟩, hway⟩ : ∃ p, d.makeWay (d.start path) false (pathParts path) = p :=
      ⟨_, rfl⟩
    rw [hway] at h
    obtain ⟨hok, rfl⟩ := Prod.mk.inj h
    obtain ⟨result, rfl⟩ := exists_of_map_eq_ok hok
    exact ⟨result, walk_of_makeWay horigin hdot hway⟩

/-! ## Writing -/

theorem rawParts_of_slash {above below : String}
    (h : path.toList = above.toList ++ '/' :: below.toList) :
    rawParts path = rawParts above ++ rawParts below := by
  simp only [rawParts, h, Text.splitOn_eq, List.splitOn_append_cons_self, List.map_append,
    List.filter_append]

theorem rawParts_of_slash_not_mem (hslash : '/' ∉ name.toList) (hname : name ≠ "") :
    rawParts name = [name] := by
  rw [rawParts, Text.splitOn_eq, List.splitOn_eq_singleton hslash]
  simp [hname]

theorem isAbsolute_of_slash_not_mem (hslash : '/' ∉ name.toList) : isAbsolute name = false := by
  rw [isAbsolute, decide_eq_false_iff_not]
  exact fun hhead => hslash (List.mem_of_head? hhead)

theorem joinPath_of_isAbsolute (directory : String) (h : isAbsolute path) :
    joinPath directory path = path := by
  rw [joinPath, h]
  rfl

theorem rawParts_append_of_endsInSlash {above : String} (h : endsInSlash above) (below : String) :
    rawParts (above ++ below) = rawParts above ++ rawParts below := by
  obtain ⟨before, hbefore⟩ := List.getLast?_eq_some_iff.mp (decide_eq_true_eq.mp h)
  have habove : rawParts above = rawParts (String.ofList before) ++ rawParts "" :=
    rawParts_of_slash (by simp [hbefore])
  have hjoined : rawParts (above ++ below) = rawParts (String.ofList before) ++ rawParts below :=
    rawParts_of_slash (by simp [hbefore])
  rw [hjoined, habove, List.append_assoc]
  rfl

/-- The way to a path in a directory goes through the directory. -/
theorem rawParts_joinPath (directory : String) (h : isAbsolute path = false) :
    rawParts (joinPath directory path) = rawParts directory ++ rawParts path := by
  rw [joinPath, h, Bool.false_or]
  split
  · next hempty =>
    rw [String.isEmpty_iff.mp hempty]
    rfl
  · split
    · next hlast => exact rawParts_append_of_endsInSlash (decide_eq_true hlast) path
    · exact rawParts_of_slash (by simp)

theorem start_joinPath (d : Disk) (directory : String) (h : isAbsolute path = false) :
    d.start (joinPath directory path) = d.start directory := by
  have habsolute : isAbsolute (joinPath directory path) = isAbsolute directory := by
    rw [joinPath, h, Bool.false_or]
    split
    · next hempty =>
      rw [String.isEmpty_iff.mp hempty, h]
      rfl
    · next hempty =>
      obtain ⟨first, rest, hfirst⟩ := List.exists_cons_of_ne_nil (l := directory.toList)
        (by simpa using hempty)
      split <;> simp [isAbsolute, hfirst]
  rw [start, start, habsolute]

theorem endsInSlash_append (before : String) {after : String} (h : endsInSlash after) :
    endsInSlash (before ++ after) := by
  have hlast := decide_eq_true_eq.mp h
  rw [endsInSlash, decide_eq_true_eq, String.toList_append, List.getLast?_append, hlast,
    Option.some_or]

/-! ## Names at the end of a path -/

/-- A path up to its last slash, and the name behind it. -/
structure SplitPath (path above name : String) : Prop where
  eq : path = above ++ name
  ends : above = "" ∨ endsInSlash above = true
  slash : '/' ∉ name.toList

theorem exists_splitPath (path : String) : ∃ above name, SplitPath path above name := by
  by_cases hslash : '/' ∈ path.toList
  · obtain ⟨after, before, hreverse, hafter⟩ :=
      List.eq_append_cons_of_mem (List.mem_reverse.mpr hslash)
    have hpath : path.toList = before.reverse ++ '/' :: after.reverse := by
      simpa using congrArg List.reverse hreverse
    refine ⟨String.ofList (before.reverse ++ ['/']), String.ofList after.reverse, ?_, .inr ?_, ?_⟩
    · simp [← String.toList_inj, hpath]
    · simp [endsInSlash]
    · simpa using hafter
  · exact ⟨"", path, by simp, .inl rfl, hslash⟩

namespace SplitPath

variable {above : String}

theorem of_slash_not_mem (h : '/' ∉ name.toList) : SplitPath name "" name :=
  ⟨by simp, .inl rfl, h⟩

theorem append (h : SplitPath path above name) {suffix : String} (hsuffix : '/' ∉ suffix.toList) :
    SplitPath (path ++ suffix) above (name ++ suffix) :=
  ⟨by rw [h.eq, String.append_assoc], h.ends, by simp [h.slash, hsuffix]⟩

theorem isAbsolute_eq (h : SplitPath path above name) : isAbsolute path = isAbsolute above := by
  obtain ⟨rfl, hempty | hslash, hname⟩ := h
  · rw [hempty, String.empty_append, isAbsolute_of_slash_not_mem hname]
    rfl
  · obtain ⟨first, rest, hfirst⟩ := List.exists_cons_of_ne_nil (l := above.toList) <| by
      intro hnil
      simp [endsInSlash, hnil] at hslash
    simp [isAbsolute, hfirst]

theorem start_eq (h : SplitPath path above name) (d : Disk) : d.start path = d.start above := by
  rw [start, start, h.isAbsolute_eq]

theorem rawParts_eq (h : SplitPath path above name) (hname : name ≠ "") :
    rawParts path = rawParts above ++ [name] := by
  obtain ⟨rfl, hempty | hslash, hnot⟩ := h
  · rw [hempty, String.empty_append, rawParts_of_slash_not_mem hnot hname]
    rfl
  · rw [rawParts_append_of_endsInSlash hslash, rawParts_of_slash_not_mem hnot hname]

theorem endsInSlash_eq (h : SplitPath path above name) (hname : name ≠ "") :
    endsInSlash path = false := by
  obtain ⟨rfl, -, hslash⟩ := h
  have hlast : name.toList.getLast? ≠ some '/' := fun hlast => hslash (List.mem_of_getLast? hlast)
  have hne : name.toList ≠ [] := by simpa using hname
  rw [endsInSlash, decide_eq_false_iff_not, String.toList_append, List.getLast?_append,
    List.getLast?_eq_some_getLast hne, Option.some_or, ← List.getLast?_eq_some_getLast hne]
  exact hlast

/-- A directory is joined to what comes before the name. -/
theorem joinPath (h : SplitPath path above name) (directory : String) :
    SplitPath (joinPath directory path) (joinPath directory above) name := by
  have habsolute := h.isAbsolute_eq
  obtain ⟨rfl, hends, hslash⟩ := h
  rw [PaintBench.joinPath, PaintBench.joinPath, habsolute]
  split
  · exact ⟨rfl, hends, hslash⟩
  · split
    · next hlast =>
      refine ⟨by rw [String.append_assoc], .inr ?_, hslash⟩
      rcases hends with rfl | hends
      · rw [String.append_empty]
        exact decide_eq_true hlast
      · exact endsInSlash_append directory hends
    · refine ⟨by simp only [String.append_assoc], .inr ?_, hslash⟩
      rcases hends with rfl | hends
      · simp [endsInSlash]
      · exact endsInSlash_append (directory ++ "/") hends

end SplitPath

/-- The name of a file in a directory. -/
structure IsName (name : String) : Prop where
  ne_empty : name ≠ ""
  ne_dot : name ≠ "."
  ne_dots : name ≠ ".."

/-- A path leads to the name at its end. -/
theorem target_iff {above : String} (hsplit : SplitPath path above name) (hname : IsName name)
    {result : Place × Option DiskEntry} :
    d.target path = .ok result ↔
      pathFault? path = none ∧ nameFault? name = none ∧
        ∃ place, d.walk (d.start above) (rawParts above) = .ok place ∧
          result = (place ++ [name], d.entry? (place ++ [name])) := by
  rw [target, hsplit.rawParts_eq hname.ne_empty, List.getLast?_concat, List.dropLast_concat,
    hsplit.start_eq d, hsplit.endsInSlash_eq hname.ne_empty]
  cases pathFault? path with
  | some fault => exact ⟨nofun, fun h => nomatch h.1⟩
  | none =>
    simp only [Bool.false_or, Bool.or_eq_true, decide_eq_true_eq, hname.ne_dot, hname.ne_dots,
      or_self, if_false, bind_eq_ok_iff]
    cases nameFault? name with
    | some fault => exact ⟨fun ⟨_, _, h⟩ => (nomatch h), fun h => (nomatch h.2.1)⟩
    | none =>
      constructor
      · rintro ⟨place, hwalk, hresult⟩
        cases hresult
        exact ⟨trivial, rfl, place, hwalk, rfl⟩
      · rintro ⟨-, -, place, hwalk, rfl⟩
        exact ⟨place, hwalk, rfl⟩

/-- Writing puts a file where its path leads, in place of no directory. -/
theorem write_iff {above : String} (hsplit : SplitPath path above name) (hname : IsName name) :
    d.write path content = .ok d' ↔
      pathFault? path = none ∧ nameFault? name = none ∧
        ∃ place, d.walk (d.start above) (rawParts above) = .ok place ∧
          d.entry? (place ++ [name]) ≠ some .directory ∧
          d' = d.set (place ++ [name]) (.file content) := by
  rw [write, bind_eq_ok_iff]
  constructor
  · rintro ⟨result, htarget, hset⟩
    obtain ⟨hpath, hfits, place, hwalk, rfl⟩ := (target_iff hsplit hname).mp htarget
    refine ⟨hpath, hfits, place, hwalk, ?_⟩
    split at hset
    · cases hset
    · next hentry heq =>
      cases hset
      cases heq
      exact ⟨hentry, rfl⟩
  · rintro ⟨hpath, hfits, place, hwalk, hentry, rfl⟩
    refine ⟨_, (target_iff hsplit hname).mpr ⟨hpath, hfits, place, hwalk, rfl⟩, ?_⟩
    split
    · next heq => exact absurd (congrArg Prod.snd heq) hentry
    · next heq =>
      cases heq
      rfl

/-- Writing to a path in a directory puts the file there, in place of no directory. -/
theorem write_joinPath_iff {directory : String} (hslash : '/' ∉ name.toList) (hname : name ≠ "")
    (hdot : name ≠ ".") (hdots : name ≠ "..") :
    d.write (joinPath directory name) content = .ok d' ↔
      pathFault? (joinPath directory name) = none ∧ nameFault? name = none ∧
        ∃ place, d.walk (d.start directory) (rawParts directory) = .ok place ∧
          d.entry? (place ++ [name]) ≠ some .directory ∧
          d' = d.set (place ++ [name]) (.file content) := by
  have hway : rawParts (joinPath directory "") = rawParts directory :=
    (rawParts_joinPath directory rfl).trans (List.append_nil _)
  rw [write_iff ((SplitPath.of_slash_not_mem hslash).joinPath directory) ⟨hname, hdot, hdots⟩,
    hway, start_joinPath d directory rfl]

/-- Two disks differ by the content of one file, which lies in a directory and takes the place of
no directory. -/
structure Replaces (d d' : Disk) (place : Place) (name content : String) : Prop where
  workingDirectory : d'.workingDirectory = d.workingDirectory
  directory : d.entry? place = some .directory
  free : d.entry? (place ++ [name]) ≠ some .directory
  file : d'.entry? (place ++ [name]) = some (.file content)
  others : ∀ other, other ≠ place ++ [name] → d'.entry? other = d.entry? other

namespace Replaces

variable (h : d.Replaces d' place name content)
include h

theorem file?_eq : d'.file? (place ++ [name]) = some content := by
  rw [file?, h.file]

theorem file?_of_ne (hne : other ≠ place ++ [name]) : d'.file? other = d.file? other := by
  rw [file?, file?, h.others other hne]

theorem directories (hother : d.entry? other = some .directory) :
    d'.entry? other = some .directory := by
  rw [h.others other fun heq => h.free (heq ▸ hother)]
  exact hother

theorem start_eq (path : String) : d'.start path = d.start path :=
  start_congr h.workingDirectory path

theorem walk_eq {names : List String} {origin result : Place}
    (hwalk : d.walk origin names = .ok result) : d'.walk origin names = .ok result :=
  walk_of_directories (fun _ => h.directories) hwalk

end Replaces

/-- What a path leads to when a file was written there: the file lies in a directory, and every
other place is as before. -/
theorem replaces_of_write {above : String} (hsplit : SplitPath path above name)
    (hname : IsName name) (hworking : d.entry? d.workingDirectory = some .directory)
    (h : d.write path content = .ok d') :
    ∃ place, d.walk (d.start above) (rawParts above) = .ok place ∧
      d.Replaces d' place name content := by
  obtain ⟨-, -, place, hwalk, hentry, rfl⟩ := (write_iff hsplit hname).mp h
  have hplace : d.entry? place = some .directory :=
    entry?_of_walk (entry?_start above hworking) hwalk
  exact ⟨place, hwalk, rfl, hplace, hentry, entry?_set _ _ _,
    fun other hne => entry?_set_of_ne hplace rfl hentry hne⟩

theorem replaces_of_write_joinPath {directory : String} (hslash : '/' ∉ name.toList)
    (hname : name ≠ "") (hdot : name ≠ ".") (hdots : name ≠ "..")
    (hworking : d.entry? d.workingDirectory = some .directory)
    (h : d.write (joinPath directory name) content = .ok d') :
    ∃ place, d.walk (d.start directory) (rawParts directory) = .ok place ∧
      d.Replaces d' place name content := by
  have hway : rawParts (joinPath directory "") = rawParts directory :=
    (rawParts_joinPath directory rfl).trans (List.append_nil _)
  have hplace := replaces_of_write ((SplitPath.of_slash_not_mem hslash).joinPath directory)
    ⟨hname, hdot, hdots⟩ hworking h
  rwa [hway, start_joinPath d directory rfl] at hplace

/-- After a file was written, whatever could be written still can be. -/
theorem Replaces.exists_write (h : d.Replaces d' place name content) {above other text : String}
    (hsplit : SplitPath path above other) (hother : IsName other)
    (hwrite : ∃ after, d.write path text = .ok after) :
    ∃ after, d'.write path text = .ok after := by
  obtain ⟨after, hwrite⟩ := hwrite
  obtain ⟨hpath, hfits, directory, hwalk, hfree, -⟩ := (write_iff hsplit hother).mp hwrite
  refine ⟨_, (write_iff hsplit hother).mpr ⟨hpath, hfits, directory, ?_, ?_, rfl⟩⟩
  · rw [h.start_eq]
    exact h.walk_eq hwalk
  · by_cases heq : directory ++ [other] = place ++ [name]
    · rw [heq, h.file]
      nofun
    · rw [h.others _ heq]
      exact hfree

end Disk

end PaintBench
