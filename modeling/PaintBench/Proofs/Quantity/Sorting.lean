import Mathlib.Data.Set.List
import PaintBench.Proofs.Quantity.Ordered

/-!
# Sorting by a quantity

Lists are sorted by keys that are compared with `<` alone. If all keys are numbers, the result
is in the order of the keys (`pairwise_sortedBy`), and it is stable: elements with alike keys
keep their order (`filter_sortedBy`). A key that is not a number could stand anywhere.
-/

namespace PaintBench.Quantity

variable {ι α : Type} [Quantity α]

/-- A list with elements of smaller keys first. -/
def sortedBy (key : ι → α) (l : List ι) : List ι :=
  l.mergeSort fun a b => !decide (key b < key a)

theorem sortedBy_perm (key : ι → α) (l : List ι) : (sortedBy key l).Perm l :=
  List.mergeSort_perm l _

variable {key : ι → α} {l : List ι}

/-- Elements whose keys are numbers are sorted among themselves as they are among all. -/
theorem sortedBy_map_val (l : List {a : ι // key a ≤ key a}) :
    sortedBy key (l.map Subtype.val) = (sortedBy (fun a => key a.1) l).map Subtype.val := by
  symm
  apply List.map_mergeSort
  intros
  rfl

variable [Ordered α]

/-- One number is not less than another one if that one is at most it. -/
theorem not_lt_iff {a b : α} (ha : a ≤ a) (hb : b ≤ b) : ¬b < a ↔ a ≤ b := by
  rw [Ordered.lt_iff]
  constructor
  · intro h
    rcases Ordered.le_total ha hb with hab | hba
    · exact hab
    · exact Decidable.byContradiction fun hab => h ⟨hba, hab⟩
  · rintro hab ⟨-, hnot⟩
    exact hnot hab

/-- Keys that are numbers are compared as such. -/
theorem not_decide_lt (a b : {a : ι // key a ≤ key a}) :
    (!decide (key b.1 < key a.1)) = true ↔ key a.1 ≤ key b.1 := by
  simpa using not_lt_iff a.2 b.2

theorem not_decide_lt_trans (a b c : {a : ι // key a ≤ key a})
    (hab : (!decide (key b.1 < key a.1)) = true) (hbc : (!decide (key c.1 < key b.1)) = true) :
    (!decide (key c.1 < key a.1)) = true :=
  (not_decide_lt a c).mpr
    (Ordered.le_trans ((not_decide_lt a b).mp hab) ((not_decide_lt b c).mp hbc))

theorem not_decide_lt_total (a b : {a : ι // key a ≤ key a}) :
    (!decide (key b.1 < key a.1) || !decide (key a.1 < key b.1)) = true := by
  rw [Bool.or_eq_true, not_decide_lt, not_decide_lt]
  exact Ordered.le_total a.2 b.2

/-- Keys that are numbers come in their order. -/
theorem pairwise_sortedBy (h : ∀ a ∈ l, key a ≤ key a) :
    (sortedBy key l).Pairwise fun a b => key a ≤ key b := by
  lift l to List {a : ι // key a ≤ key a} using h
  rw [sortedBy_map_val, List.pairwise_map]
  refine (List.pairwise_mergeSort not_decide_lt_trans not_decide_lt_total l).imp ?_
  exact fun hab => (not_decide_lt _ _).mp hab

/-- Sorting by numbers is stable: elements of a class whose keys are at most each other keep
their order. -/
theorem filter_sortedBy (h : ∀ a ∈ l, key a ≤ key a) {p : ι → Bool}
    (hp : ∀ a b, p a → p b → key a ≤ key b) : (sortedBy key l).filter p = l.filter p := by
  lift l to List {a : ι // key a ≤ key a} using h
  rw [sortedBy_map_val, List.filter_map, List.filter_map]
  congr 1
  have halike : (l.filter (p ∘ Subtype.val)).Pairwise
      fun a b => (!decide (key b.1 < key a.1)) = true :=
    List.pairwise_of_forall_mem_list fun a ha b hb => (not_decide_lt a b).mpr
      (hp a b (List.mem_filter.mp ha).2 (List.mem_filter.mp hb).2)
  -- the class is sorted as it is, so it stands in the result in its order
  have hclass := (List.sublist_mergeSort not_decide_lt_trans not_decide_lt_total halike
    List.filter_sublist).filter (p ∘ Subtype.val)
  rw [List.filter_filter] at hclass
  simp only [Bool.and_self] at hclass
  exact (hclass.eq_of_length ((sortedBy_perm _ l).filter _).length_eq.symm).symm

end PaintBench.Quantity
