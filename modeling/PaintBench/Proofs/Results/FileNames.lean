import PaintBench.Implementation

/-!
# Names of result files

The name of a result file is glued together from the name of an implementation, its version, its
keyed flag and a result kind, with separators that may occur in the parts. So the results of
different pairs may go to one file. `same_file_iff` says exactly when they do: where a name takes
in the version of the other one, where a name or version ends in the beginning of a keyed flag,
or where a kind takes in the end of a full name (`Confused`).
-/

namespace PaintBench

namespace Implementation

variable {d d' : Implementation}

/-- The version in a full name. -/
def versionPart (d : Implementation) : String :=
  (d.version.map ("-v" ++ ·)).getD ""

/-- The name with the version. -/
def label (d : Implementation) : String :=
  d.name ++ d.versionPart

theorem fullName_eq (d : Implementation) :
    d.fullName = d.label ++ "-" ++ (if d.keyed then "keyed" else "non-keyed") := rfl

theorem versionPart_cases (d : Implementation) :
    (d.version = none ∧ d.versionPart = "") ∨
      ∃ v, d.version = some v ∧ d.versionPart = "-v" ++ v := by
  rw [versionPart]
  cases d.version with
  | none => exact Or.inl ⟨rfl, rfl⟩
  | some v => exact Or.inr ⟨v, rfl, rfl⟩

end Implementation

/-! ## Texts glued together -/

/-- Of two cuts of a text, one comes after the other, with some text between them. -/
theorem append_cases {s t u v : String} (h : s ++ t = u ++ v) :
    (∃ m, u = s ++ m ∧ t = m ++ v) ∨ ∃ m, s = u ++ m ∧ v = m ++ t := by
  rw [← String.toList_inj, String.toList_append, String.toList_append] at h
  obtain ⟨m, hu, ht⟩ | ⟨m, hs, hv⟩ := List.append_eq_append_iff.mp h
  · refine Or.inl ⟨String.ofList m, ?_, ?_⟩
    · simp [← String.toList_inj, hu]
    · simp [← String.toList_inj, ht]
  · refine Or.inr ⟨String.ofList m, ?_, ?_⟩
    · simp [← String.toList_inj, hs]
    · simp [← String.toList_inj, hv]

/-! ## Full names that are the same -/

namespace Implementation

variable {d d' : Implementation}

/-- What comes before another version part is nothing, or it begins as a version does. -/
theorem versionPart_append {m : String} (h : d.versionPart = m ++ d'.versionPart) :
    (m = "" ∧ d.version = d'.version) ∨
      ∃ rest, m = "-v" ++ rest ∧ d.version = some (rest ++ d'.versionPart) := by
  obtain ⟨hnone, hempty⟩ | ⟨v, hsome, hv⟩ := d.versionPart_cases
  · rw [hempty] at h
    have hm : m = "" ∧ d'.versionPart = "" := by simpa using h.symm
    obtain ⟨hnone', -⟩ | ⟨v', -, hv'⟩ := d'.versionPart_cases
    · exact Or.inl ⟨hm.1, hnone.trans hnone'.symm⟩
    · rw [hm.2] at hv'
      simp at hv'
  · rw [hv] at h
    have hchars : '-' :: 'v' :: v.toList = m.toList ++ d'.versionPart.toList := by
      simpa [← String.toList_inj] using h
    -- how much of the sign of the version lies in the other name
    match hm : m.toList, hchars with
    | [], hchars =>
      obtain rfl : m = "" := by simpa using hm
      obtain ⟨-, hempty'⟩ | ⟨v', hsome', hv'⟩ := d'.versionPart_cases
      · simp [hempty'] at hchars
      · rw [hv'] at h
        have hsame : v = v' := by simpa using h
        exact Or.inl ⟨rfl, by rw [hsome, hsome', hsame]⟩
    | [c], hchars =>
      obtain ⟨-, hempty'⟩ | ⟨v', hsome', hv'⟩ := d'.versionPart_cases
      · simp [hempty'] at hchars
      · simp [hv'] at hchars
    | c :: c' :: rest, hchars =>
      obtain ⟨rfl, rfl, hrest⟩ : '-' = c ∧ 'v' = c' ∧ v.toList = rest ++ d'.versionPart.toList := by
        simpa using hchars
      refine Or.inr ⟨String.ofList rest, ?_, ?_⟩
      · simp [← String.toList_inj, hm]
      · rw [hsome]
        simp [← String.toList_inj, hrest]

/-- A name takes in the version of another implementation. -/
def TakesInVersion (d' d : Implementation) : Prop :=
  ∃ rest, d'.name = d.name ++ "-v" ++ rest ∧ d.version = some (rest ++ d'.versionPart)

theorem label_cases (h : d.label = d'.label) :
    (d.name = d'.name ∧ d.version = d'.version) ∨ d'.TakesInVersion d ∨ d.TakesInVersion d' := by
  obtain ⟨m, hname, hpart⟩ | ⟨m, hname, hpart⟩ := append_cases h
  · obtain ⟨rfl, hversion⟩ | ⟨rest, rfl, hversion⟩ := versionPart_append hpart
    · exact Or.inl ⟨by simpa using hname.symm, hversion⟩
    · exact Or.inr (Or.inl ⟨rest, by rw [hname, String.append_assoc], hversion⟩)
  · obtain ⟨rfl, hversion⟩ | ⟨rest, rfl, hversion⟩ := versionPart_append hpart
    · exact Or.inl ⟨by simpa using hname, hversion.symm⟩
    · exact Or.inr (Or.inr ⟨rest, by rw [hname, String.append_assoc], hversion⟩)

theorem TakesInVersion.label_eq (h : d'.TakesInVersion d) : d.label = d'.label := by
  obtain ⟨rest, hname, hversion⟩ := h
  rw [label, label, hname, versionPart, hversion]
  simp [String.append_assoc]

theorem TakesInVersion.length_lt (h : d'.TakesInVersion d) : d.name.length < d'.name.length := by
  obtain ⟨rest, hname, -⟩ := h
  have hsign : "-v".length = 2 := rfl
  rw [hname, String.length_append, String.length_append, hsign]
  omega

/-- The label of a keyed implementation ends in the beginning of the other flag. -/
def TakesInFlag (d d' : Implementation) : Prop :=
  d.keyed = true ∧ d'.keyed = false ∧ d.label = d'.label ++ "-non"

theorem TakesInFlag.fullName_eq (h : d.TakesInFlag d') : d.fullName = d'.fullName := by
  obtain ⟨hkeyed, hkeyed', hlabel⟩ := h
  rw [Implementation.fullName_eq, Implementation.fullName_eq, hkeyed, hkeyed', hlabel]
  simp [String.append_assoc]

theorem fullName_cases (h : d.fullName = d'.fullName) :
    (d.keyed = d'.keyed ∧ d.label = d'.label) ∨ d.TakesInFlag d' ∨ d'.TakesInFlag d := by
  have hflag {a b : String} (h : a ++ "-" ++ "keyed" = b ++ "-" ++ "non-keyed") :
      a = b ++ "-non" := by
    rw [← String.append_left_inj "-keyed"]
    simpa [String.append_assoc] using h
  rw [fullName_eq, fullName_eq] at h
  cases hkeyed : d.keyed <;> cases hkeyed' : d'.keyed <;> rw [hkeyed, hkeyed'] at h
  · exact Or.inl ⟨rfl, by simpa using h⟩
  · exact Or.inr (Or.inr ⟨hkeyed', hkeyed, hflag h.symm⟩)
  · exact Or.inr (Or.inl ⟨hkeyed, hkeyed', hflag h⟩)
  · exact Or.inl ⟨rfl, by simpa using h⟩

end Implementation

/-! ## Files that are the same -/

/-- What stands before the separator of a kind is nothing, or it begins with a separator itself. -/
theorem separator_append {m k k' : String} (h : "_" ++ k = m ++ ("_" ++ k')) :
    (m = "" ∧ k = k') ∨ ∃ rest, m = "_" ++ rest ∧ k = rest ++ "_" ++ k' := by
  have hchars : '_' :: k.toList = m.toList ++ '_' :: k'.toList := by
    simpa [← String.toList_inj] using h
  cases hm : m.toList with
  | nil =>
    obtain rfl : m = "" := by simpa using hm
    exact Or.inl ⟨rfl, by simpa using h⟩
  | cons c rest =>
    rw [hm] at hchars
    obtain ⟨rfl, hrest⟩ : '_' = c ∧ k.toList = rest ++ '_' :: k'.toList := by simpa using hchars
    refine Or.inr ⟨String.ofList rest, ?_, ?_⟩
    · simp [← String.toList_inj, hm]
    · simp [← String.toList_inj, hrest]

/-- A result kind takes in the end of a full name that goes on after another one. -/
def TakesInName (k fullName fullName' k' : String) : Prop :=
  ∃ rest, fullName' = fullName ++ "_" ++ rest ∧ k = rest ++ "_" ++ k'

theorem resultFileName_cases {fullName fullName' k k' : String}
    (h : resultFileName fullName k = resultFileName fullName' k') :
    (fullName = fullName' ∧ k = k') ∨ TakesInName k fullName fullName' k' ∨
      TakesInName k' fullName' fullName k := by
  rw [resultFileName, resultFileName, String.append_left_inj, String.append_assoc,
    String.append_assoc] at h
  obtain ⟨m, hname, hkind⟩ | ⟨m, hname, hkind⟩ := append_cases h
  · obtain ⟨rfl, hsame⟩ | ⟨rest, rfl, hk⟩ := separator_append hkind
    · exact Or.inl ⟨by simpa using hname.symm, hsame⟩
    · exact Or.inr (Or.inl ⟨rest, by rw [hname, String.append_assoc], hk⟩)
  · obtain ⟨rfl, hsame⟩ | ⟨rest, rfl, hk⟩ := separator_append hkind
    · exact Or.inl ⟨by simpa using hname, hsame.symm⟩
    · exact Or.inr (Or.inr ⟨rest, by rw [hname, String.append_assoc], hk⟩)

/-- The result of a pair goes to the file of another one, which takes in a part of its name. -/
def Confused (d : Implementation) (k : String) (d' : Implementation) (k' : String) : Prop :=
  (k = k' ∧ ((d.keyed = d'.keyed ∧ d'.TakesInVersion d) ∨ d.TakesInFlag d')) ∨
    TakesInName k d.fullName d'.fullName k'

variable {d d' : Implementation} {k k' : String}

/-- Confused pairs are different, and their results go to one file. -/
theorem Confused.same_file (h : Confused d k d' k') :
    (d.name ≠ d'.name ∨ d.version ≠ d'.version ∨ d.keyed ≠ d'.keyed ∨ k ≠ k') ∧
      resultFileName d.fullName k = resultFileName d'.fullName k' := by
  obtain ⟨rfl, ⟨hkeyed, hversion⟩ | hflag⟩ | ⟨rest, hname, rfl⟩ := h
  · refine ⟨Or.inl fun hname => ?_, ?_⟩
    · have hlonger := hversion.length_lt
      rw [hname] at hlonger
      exact absurd hlonger (Nat.lt_irrefl _)
    · rw [Implementation.fullName_eq, Implementation.fullName_eq, hversion.label_eq, hkeyed]
  · refine ⟨Or.inr (Or.inr (Or.inl ?_)), by rw [hflag.fullName_eq]⟩
    rw [hflag.1, hflag.2.1]
    decide
  · refine ⟨Or.inr (Or.inr (Or.inr fun hkind => ?_)), ?_⟩
    · have hlength := congrArg String.length hkind
      rw [String.length_append, String.length_append] at hlength
      have hsign : "_".length = 1 := rfl
      omega
    · rw [hname]
      simp [resultFileName, String.append_assoc]

/-- One file for the results of two pairs tells that they are the same or confused. -/
theorem confused_of_same_file (h : resultFileName d.fullName k = resultFileName d'.fullName k') :
    (d.name = d'.name ∧ d.version = d'.version ∧ d.keyed = d'.keyed ∧ k = k') ∨
      Confused d k d' k' ∨ Confused d' k' d k := by
  obtain ⟨hname, rfl⟩ | hkind | hkind := resultFileName_cases h
  · obtain ⟨hkeyed, hlabel⟩ | hflag | hflag := Implementation.fullName_cases hname
    · obtain ⟨hsame, hversion⟩ | htakes | htakes := Implementation.label_cases hlabel
      · exact Or.inl ⟨hsame, hversion, hkeyed, rfl⟩
      · exact Or.inr (Or.inl (Or.inl ⟨rfl, Or.inl ⟨hkeyed, htakes⟩⟩))
      · exact Or.inr (Or.inr (Or.inl ⟨rfl, Or.inl ⟨hkeyed.symm, htakes⟩⟩))
    · exact Or.inr (Or.inl (Or.inl ⟨rfl, Or.inr hflag⟩))
    · exact Or.inr (Or.inr (Or.inl ⟨rfl, Or.inr hflag⟩))
  · exact Or.inr (Or.inl (Or.inr hkind))
  · exact Or.inr (Or.inr (Or.inr hkind))

/-- The results of different pairs go to one file exactly if the pairs are confused. -/
theorem same_file_iff (d d' : Implementation) (k k' : String) :
    ((d.name ≠ d'.name ∨ d.version ≠ d'.version ∨ d.keyed ≠ d'.keyed ∨ k ≠ k') ∧
      resultFileName d.fullName k = resultFileName d'.fullName k') ↔
    Confused d k d' k' ∨ Confused d' k' d k := by
  constructor
  · rintro ⟨hdiffer, hfile⟩
    obtain ⟨hname, hversion, hkeyed, hkind⟩ | hconfused := confused_of_same_file hfile
    · simp [hname, hversion, hkeyed, hkind] at hdiffer
    · exact hconfused
  · rintro (h | h)
    · exact h.same_file
    · obtain ⟨hdiffer, hfile⟩ := h.same_file
      exact ⟨by simpa only [ne_comm, eq_comm] using hdiffer, hfile.symm⟩

/-- Results of two different implementations that go to one file. -/
theorem lit_file_not_unique :
    ¬∀ (d d' : Implementation) (k k' : String),
      (d.name ≠ d'.name ∨ d.version ≠ d'.version ∨ d.keyed ≠ d'.keyed ∨ k ≠ k') →
        resultFileName d.fullName k ≠ resultFileName d'.fullName k' := by
  intro hunique
  exact hunique (.plain "lit-v2.0" "frameworks/keyed/lit-v2.0" true none)
    (.plain "lit" "frameworks/keyed/lit" true (some "2.0")) "31_startup-ci" "31_startup-ci"
    (Or.inl (by decide)) (by decide)

/-! ## Files that are never the same -/

/-- A pair whose parts do not look like the separators of a name. -/
structure ClearlyNamed (d : Implementation) (k : String) : Prop where
  name : ¬"-v".toList <:+: d.name.toList
  label : ¬"-non".toList <:+ d.label.toList
  kind : ¬"keyed_".toList <:+: k.toList

theorem keyed_suffix_fullName (d : Implementation) : "keyed".toList <:+ d.fullName.toList := by
  cases hkeyed : d.keyed
  · exact ⟨(d.label ++ "-non-").toList, by simp [Implementation.fullName_eq, hkeyed]⟩
  · exact ⟨(d.label ++ "-").toList, by simp [Implementation.fullName_eq, hkeyed]⟩

/-- A clearly named pair is not confused with another one. -/
theorem ClearlyNamed.not_confused (h : ClearlyNamed d k) (h' : ClearlyNamed d' k') :
    ¬Confused d k d' k' := by
  rintro (⟨-, ⟨-, rest, hname, -⟩ | ⟨-, -, hlabel⟩⟩ | ⟨rest, hname, rfl⟩)
  · exact h'.name ⟨d.name.toList, rest.toList, by simp [hname]⟩
  · exact h.label ⟨d'.label.toList, by simp [hlabel]⟩
  · -- the kind takes in the end of a full name, which is that of a flag
    have hrest : '_' :: rest.toList <:+ d'.fullName.toList :=
      ⟨d.fullName.toList, by simp [hname]⟩
    obtain hflag | hflag := List.suffix_or_suffix_of_suffix (keyed_suffix_fullName d') hrest
    · obtain hwhole | ⟨before, hbefore⟩ := List.suffix_cons_iff.mp hflag
      · simp at hwhole
      · exact h.kind ⟨before, k'.toList, by simp [← hbefore]⟩
    · exact absurd (hflag.subset List.mem_cons_self) (by decide)

/-- The results of clearly named pairs go to files of their own. -/
theorem ClearlyNamed.same_file (h : ClearlyNamed d k) (h' : ClearlyNamed d' k')
    (hfile : resultFileName d.fullName k = resultFileName d'.fullName k') :
    d.name = d'.name ∧ d.version = d'.version ∧ d.keyed = d'.keyed ∧ k = k' := by
  obtain hsame | hconfused | hconfused := confused_of_same_file hfile
  · exact hsame
  · exact absurd hconfused (h.not_confused h')
  · exact absurd hconfused (h'.not_confused h)

end PaintBench
