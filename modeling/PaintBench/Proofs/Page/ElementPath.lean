import PaintBench.Page.ElementPath
import PaintBench.Proofs.Result
import PaintBench.Proofs.Text.Lines

/-!
# Paths that read

A path reads if its parts do (`exists_readAll`), and the parts of a path with a slash in it are
those on either side (`parts_append`).
-/

namespace PaintBench.Segment

/-- The parts of a path: what stands between slashes and is not empty. -/
def parts (s : List Char) : List (List Char) :=
  (s.splitOn '/').filter (!·.isEmpty)

theorem parts_append (s t : List Char) : parts (s ++ '/' :: t) = parts s ++ parts t := by
  rw [parts, List.splitOn_append_cons_self, List.filter_append]
  rfl

theorem parts_of_slash_not_mem {s : List Char} (h : '/' ∉ s) (hne : s ≠ []) : parts s = [s] := by
  rw [parts, List.splitOn_eq_singleton h]
  simpa using hne

theorem readAll_eq (s : List Char) : readAll s =
    match parts s with
    | [] => .error .empty
    | l => readParts l := by
  rw [readAll, Text.splitOn_eq]
  rfl

theorem readParts_append {l l' : List (List Char)} {ps qs : List Segment}
    (h : readParts l = .ok ps) (h' : readParts l' = .ok qs) :
    readParts (l ++ l') = .ok (ps ++ qs) := by
  induction l generalizing ps with
  | nil =>
    cases h
    exact h'
  | cons part rest ih =>
    obtain ⟨segment, hpart, h⟩ := bind_eq_ok_iff.mp h
    obtain ⟨segments, hrest, h⟩ := bind_eq_ok_iff.mp h
    cases h
    rw [List.cons_append, readParts, hpart, ih hrest]
    rfl

/-- Every part of a text reads. -/
def Readable (s : List Char) : Prop :=
  ∃ segments, readParts (parts s) = .ok segments

theorem Readable.append {s t : List Char} (hs : Readable s) (ht : Readable t) :
    Readable (s ++ '/' :: t) := by
  obtain ⟨ps, hps⟩ := hs
  obtain ⟨qs, hqs⟩ := ht
  exact ⟨ps ++ qs, by rw [parts_append, readParts_append hps hqs]⟩

/-- A path reads if it has parts and all of them read. -/
theorem exists_readAll {s : List Char} (h : Readable s) (hne : parts s ≠ []) :
    ∃ segments, readAll s = .ok segments := by
  rw [readAll_eq]
  split
  · next hnil => exact absurd hnil hne
  · exact h

end PaintBench.Segment
