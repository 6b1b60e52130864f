import PaintBench.Proofs.Quantity.Sorting
import PaintBench.Stats.Summary

/-!
# Statistics of numbers

Samples that are numbers are put in ascending order (`pairwise_ascending`), so the first of them
is at most the last one, and there are statistics of them (`exists_summarize`).
-/

namespace PaintBench.Stats

variable {α : Type} [Quantity α] [Quantity.Ordered α] {samples : List α}

/-- Numbers are sorted as such. What is not a number could stand anywhere. -/
theorem pairwise_ascending (h : ∀ a ∈ samples, a ≤ a) :
    (ascending samples).Pairwise (· ≤ ·) :=
  show (Quantity.sortedBy id samples).Pairwise _ from Quantity.pairwise_sortedBy h

/-- There are statistics of numbers. -/
theorem exists_summarize (h : ∀ a ∈ samples, a ≤ a) :
    ∃ summary, summarize samples = .ok summary := by
  have hsorted := pairwise_ascending h
  have hmem : ∀ a ∈ ascending samples, a ≤ a := fun a ha => h a (List.mem_mergeSort.mp ha)
  rw [summarize]
  cases hascending : ascending samples with
  | nil => exact ⟨none, rfl⟩
  | cons least rest =>
    rw [hascending] at hsorted hmem
    have hle : least ≤ (least :: rest).getLast (List.cons_ne_nil _ _) := by
      rcases List.mem_cons.mp (List.getLast_mem (List.cons_ne_nil least rest)) with hlast | hlast
      · rw [hlast]
        exact hmem least List.mem_cons_self
      · exact (List.pairwise_cons.mp hsorted).1 _ hlast
    rw [List.head?_cons, List.getLast?_eq_some_getLast (List.cons_ne_nil _ _)]
    dsimp only
    rw [summarizeSorted, if_pos hle]
    exact ⟨_, rfl⟩

end PaintBench.Stats
