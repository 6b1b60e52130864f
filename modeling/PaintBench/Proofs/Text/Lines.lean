import PaintBench.Text.Search

/-!
# Lines of a text

What follows a line break starts a line of its own (`WholeLines.lines_append`),
and the lines of a blank text are blank (`isBlankText_of_mem_lines`). The first line of a
text is what stands before its first line break (`takeLine_append_newline`).
-/

namespace PaintBench.Text

/-! ## Pieces -/

theorem splitOn_eq (separator : Char) (s : List Char) :
    splitOn separator s = s.splitOn separator := by
  induction s with
  | nil => rfl
  | cons c s ih =>
    rw [splitOn, ih, List.splitOn_cons_eq_if_modifyHead]
    cases hpieces : s.splitOn separator with
    | nil => exact absurd hpieces (List.splitOn_ne_nil separator s)
    | cons piece pieces =>
      by_cases h : c = separator
      · simp [h]
      · simp [h]

/-- A piece has no separator in it, and is part of the text. -/
theorem not_mem_and_subset_of_mem_splitOn {separator : Char} {s piece : List Char}
    (h : piece ∈ splitOn separator s) : separator ∉ piece ∧ piece ⊆ s := by
  induction s generalizing piece with
  | nil =>
    obtain rfl := List.mem_singleton.mp h
    exact ⟨List.not_mem_nil, List.nil_subset _⟩
  | cons d s ih =>
    rw [splitOn] at h
    split at h
    · obtain rfl := List.mem_singleton.mp h
      exact ⟨List.not_mem_nil, List.nil_subset _⟩
    · next first pieces heq =>
      rw [heq] at ih
      have hlater (hmem : piece ∈ first :: pieces) : separator ∉ piece ∧ piece ⊆ d :: s :=
        ⟨(ih hmem).1, List.subset_cons_of_subset d (ih hmem).2⟩
      split at h
      · rcases List.mem_cons.mp h with rfl | hmem
        · exact ⟨List.not_mem_nil, List.nil_subset _⟩
        · exact hlater hmem
      · next hne =>
        rcases List.mem_cons.mp h with rfl | hmem
        · obtain ⟨hnot, hsubset⟩ := ih List.mem_cons_self
          exact ⟨List.not_mem_cons_of_ne_of_not_mem (Ne.symm hne) hnot,
            List.cons_subset_cons d hsubset⟩
        · exact hlater (List.mem_cons_of_mem first hmem)

theorem mem_of_mem_splitOn {separator : Char} {s piece : List Char} {c : Char}
    (hpiece : piece ∈ splitOn separator s) (hc : c ∈ piece) : c ∈ s :=
  (not_mem_and_subset_of_mem_splitOn hpiece).2 hc

/-! ## Lines -/

theorem lines_append_newline (s t : List Char) :
    lines (s ++ '\n' :: t) = lines (s ++ ['\n']) ++ lines t := by
  have hnil : ([] : List Char).splitOn '\n' = [[]] := rfl
  rcases List.eq_nil_or_concat (t.splitOn '\n') with hpieces | ⟨pieces, last, hpieces⟩
  · exact absurd hpieces (List.splitOn_ne_nil '\n' t)
  · simp only [lines, splitOn_eq, List.splitOn_append_cons_self, hpieces, hnil,
      List.concat_eq_append, ← List.append_assoc, List.dropLast_concat, List.getLast?_concat,
      List.map_append]
    simp

/-- The text is empty or ends in a line break. -/
def WholeLines (s : List Char) : Prop :=
  ∀ c ∈ s.getLast?, c = '\n'

theorem WholeLines.of_getLast? {s : List Char} (h : s.getLast? = some '\n') : WholeLines s := by
  intro c hc
  rw [h] at hc
  exact (Option.some.inj hc).symm

/-- What follows whole lines starts a line of its own. -/
theorem WholeLines.lines_append {s : List Char} (hs : WholeLines s) (t : List Char) :
    lines (s ++ t) = lines s ++ lines t := by
  rcases List.eq_nil_or_concat s with rfl | ⟨r, c, rfl⟩
  · rfl
  · obtain rfl : c = '\n' := hs c (by simp)
    rw [List.concat_eq_append, List.append_assoc]
    exact lines_append_newline r t

theorem lines_of_newline_not_mem {w : List Char} (h : '\n' ∉ w) :
    lines (w ++ ['\n']) = [chompReturn w] := by
  rw [lines, splitOn_eq, List.splitOn_append_cons_self, List.splitOn_eq_singleton h]
  rfl

theorem chompReturn_of_getLast? {w : List Char} (h : w.getLast? ≠ some '\r') :
    chompReturn w = w := by
  rw [chompReturn, dropLast?, if_neg h]
  rfl

theorem mem_of_mem_chompReturn {w : List Char} {c : Char} (h : c ∈ chompReturn w) : c ∈ w := by
  unfold chompReturn dropLast? at h
  split at h
  · exact List.dropLast_subset w h
  · exact h

theorem isBlankText_of_mem_lines {s line : List Char} (hs : isBlankText s)
    (hline : line ∈ lines s) : isBlankText line := by
  rw [isBlankText, List.all_eq_true] at hs ⊢
  intro c hc
  refine hs c ?_
  rw [lines, List.mem_append] at hline
  rcases hline with h | h
  · obtain ⟨piece, hpiece, rfl⟩ := List.mem_map.mp h
    exact mem_of_mem_splitOn (List.dropLast_subset _ hpiece) (mem_of_mem_chompReturn hc)
  · have hlast := (Option.filter_eq_some_iff.mp (Option.mem_toList.mp h)).1
    exact mem_of_mem_splitOn (List.mem_of_getLast? hlast) hc

/-! ## The first line -/

theorem takeLine_append_newline {w : List Char} (h : '\n' ∉ w) (rest : List Char) :
    takeLine (w ++ '\n' :: rest) = (w ++ ['\n'], rest) := by
  induction w with
  | nil => rfl
  | cons c w ih =>
    obtain ⟨hc, hw⟩ := List.ne_and_not_mem_of_not_mem_cons h
    rw [List.cons_append, takeLine, if_neg hc.symm, ih hw]
    rfl

/-- Only the line break is cut off a line that has no blanks at its ends. -/
theorem trim_append_newline {c d : Char} (t : List Char) (hc : isBlank c = false)
    (hd : isBlank d = false) : trim (c :: t ++ [d] ++ ['\n']) = c :: t ++ [d] := by
  have hnewline : isBlank '\n' = true := by decide
  simp [trim, trimStart, hc, hd, hnewline]

end PaintBench.Text
