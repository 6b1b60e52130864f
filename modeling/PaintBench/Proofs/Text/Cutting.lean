import Mathlib.Data.List.TakeWhile
import PaintBench.Text.Search

/-!
# Searching and cutting texts

Where a text occurs in another one (`occursIn_iff`), and what is left of a text that is cut: at a
separator (`splitOnce_eq_some_iff`), before its last character (`dropLast?_eq_some_iff`), or at the
blanks around it (`exists_eq_append_trim`, `trim_append`).
-/

namespace PaintBench.Text

variable {c : Char} {s t core lead trail : List Char}

theorem occursIn_iff : occursIn s t = true ↔ s <:+: t := by
  induction t with
  | nil => simp [occursIn]
  | cons c t ih =>
    rw [occursIn, Bool.or_eq_true, List.isPrefixOf_iff_prefix, ih, List.infix_cons_iff]

/-! ## Separators -/

/-- A text is cut at the first separator. -/
theorem splitOnce_append_cons (h : c ∉ s) (t : List Char) :
    splitOnce c (s ++ c :: t) = some (s, t) := by
  induction s with
  | nil => simp [splitOnce]
  | cons d s ih =>
    rw [List.mem_cons, not_or] at h
    rw [List.cons_append, splitOnce, if_neg (Ne.symm h.1), ih h.2]
    rfl

theorem splitOnce_eq_none_iff : splitOnce c s = none ↔ c ∉ s := by
  constructor
  · intro h hmem
    obtain ⟨a, b, rfl, hbefore⟩ := List.eq_append_cons_of_mem hmem
    rw [splitOnce_append_cons hbefore] at h
    cases h
  · intro h
    induction s with
    | nil => rfl
    | cons d s ih =>
      obtain ⟨hne, hrest⟩ := List.ne_and_not_mem_of_not_mem_cons h
      rw [splitOnce, if_neg hne.symm, ih hrest]
      rfl

theorem splitOnce_eq_some_iff {p : List Char × List Char} :
    splitOnce c s = some p ↔ c ∉ p.1 ∧ s = p.1 ++ c :: p.2 := by
  constructor
  · intro h
    by_cases hmem : c ∈ s
    · obtain ⟨a, b, rfl, hbefore⟩ := List.eq_append_cons_of_mem hmem
      rw [splitOnce_append_cons hbefore] at h
      cases h
      exact ⟨hbefore, rfl⟩
    · rw [splitOnce_eq_none_iff.mpr hmem] at h
      cases h
  · rintro ⟨hbefore, rfl⟩
    exact splitOnce_append_cons hbefore p.2

theorem dropLast?_eq_some_iff : dropLast? c s = some t ↔ s = t ++ [c] := by
  rw [dropLast?]
  constructor
  · intro h
    split at h
    · next hlast =>
      cases h
      obtain ⟨above, rfl⟩ := List.getLast?_eq_some_iff.mp hlast
      rw [List.dropLast_concat]
    · cases h
  · rintro rfl
    rw [List.getLast?_concat, if_pos rfl, List.dropLast_concat]

/-! ## Blanks -/

theorem not_blank_of_isDigit {c : Char} (h : c.isDigit) : isBlank c = false := by
  have hrange : 48 ≤ c.toNat ∧ c.toNat ≤ 57 := by
    simpa [Char.isDigit, UInt32.le_iff_toNat_le] using h
  simp only [isBlank, Bool.or_eq_false_iff, Bool.and_eq_false_iff, decide_eq_false_iff_not,
    beq_eq_false_iff_ne]
  omega

/-- Trimming cuts blanks off, and nothing else. -/
theorem exists_eq_append_trim (s : List Char) :
    ∃ lead trail, s = lead ++ trim s ++ trail ∧ (∀ c ∈ lead, isBlank c) ∧
      ∀ c ∈ trail, isBlank c := by
  have hstart (s : List Char) : s.takeWhile isBlank ++ trimStart s = s :=
    List.takeWhile_append_dropWhile
  have hblank (s : List Char) : ∀ c ∈ s.takeWhile isBlank, isBlank c :=
    fun c hc => List.mem_takeWhile_imp hc
  refine ⟨s.takeWhile isBlank, ((trimStart s).reverse.takeWhile isBlank).reverse, ?_, hblank s,
    fun c hc => hblank _ c (List.mem_reverse.mp hc)⟩
  rw [trim, List.append_assoc, ← List.reverse_append, hstart, List.reverse_reverse, hstart]

theorem trimStart_append (hlead : ∀ c ∈ lead, isBlank c) (hcore : ∀ c ∈ core, isBlank c = false)
    (hne : core ≠ []) (rest : List Char) : trimStart (lead ++ core ++ rest) = core ++ rest := by
  obtain ⟨c, core, rfl⟩ := List.exists_cons_of_ne_nil hne
  rw [trimStart, List.append_assoc, List.dropWhile_append_of_pos hlead, List.cons_append,
    List.dropWhile_cons_of_neg (by simp [hcore c List.mem_cons_self])]

/-- What is not blank is left when the blanks around it are trimmed. -/
theorem trim_append (hlead : ∀ c ∈ lead, isBlank c) (htrail : ∀ c ∈ trail, isBlank c)
    (hcore : ∀ c ∈ core, isBlank c = false) (hne : core ≠ []) :
    trim (lead ++ core ++ trail) = core := by
  have hend := trimStart_append (fun c hc => htrail c (List.mem_reverse.mp hc))
    (fun c hc => hcore c (List.mem_reverse.mp hc)) (List.reverse_ne_nil_iff.mpr hne) []
  rw [trim, trimStart_append hlead hcore hne, List.reverse_append]
  rw [List.append_nil, List.append_nil] at hend
  rw [hend, List.reverse_reverse]

end PaintBench.Text
