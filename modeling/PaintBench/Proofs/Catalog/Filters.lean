import PaintBench.Proofs.Catalog.Custom
import PaintBench.Proofs.Text.Cutting
import PaintBench.Proofs.Text.Lower

/-!
# Filters

A filter chooses the benchmarks whose id contains it when letter case is of no account, that is,
when both are in lower case (`exists_select_eq_filter`). The two are put in lower case one by one,
and a capital sigma at an end of the filter may have another form there than in the id that the
filter is a fragment of. All other filters find the ids that they are fragments of
(`fragments_select_benchmarks`), but such a one need not (`sigma_misses_its_word`).
-/

namespace PaintBench.Catalog

open Text

variable {c : Catalog} {b : Benchmark} {f : String} {filters : List String}

theorem accepts_iff {id : String} :
    accepts f id = true ↔ lower f.toList <:+: lower id.toList :=
  occursIn_iff

theorem select_nil (c : Catalog) : c.select [] = c.benchmarks := by
  simp [select]

theorem select_sublist (c : Catalog) (filters : List String) :
    (c.select filters).Sublist c.benchmarks :=
  List.filter_sublist

/-- Some filter has to be contained in the id, both in lower case. -/
theorem exists_select_eq_filter (c : Catalog) (filters : List String) :
    ∃ chosen : Benchmark → Bool, c.select filters = c.benchmarks.filter chosen ∧
      ∀ b, chosen b = true ↔
        filters = [] ∨ ∃ f ∈ filters, lower f.toList <:+: lower b.id.toList := by
  refine ⟨_, rfl, fun b => ?_⟩
  rw [Bool.or_eq_true, List.isEmpty_iff, List.any_eq_true]
  simp only [accepts_iff]

theorem mem_select_of_keepsSigmas {before after : List Char} (hb : b ∈ c.benchmarks)
    (hf : f ∈ filters) (hid : b.id.toList = before ++ f.toList ++ after)
    (hsigmas : KeepsSigmas before f.toList after) : b ∈ c.select filters := by
  obtain ⟨chosen, hselect, hchosen⟩ := c.exists_select_eq_filter filters
  rw [hselect, List.mem_filter, hchosen]
  exact ⟨hb, .inr ⟨f, hf, hid ▸ hsigmas.lower_infix⟩⟩

/-- What filters select stands in the order of the catalog, each entry at most once. It is
everything if there are no filters, and else what contains one of them in lower case. So it is
every benchmark whose id has a filter as a fragment, if the fragment has no capital sigma, or only
such that end words in the id where they do so in the filter. -/
theorem fragments_select_benchmarks (c : Catalog) (filters : List String) :
    (c.select filters).Sublist c.benchmarks ∧
    (filters = [] → c.select filters = c.benchmarks) ∧
    (∃ chosen : Benchmark → Bool, c.select filters = c.benchmarks.filter chosen ∧
      ∀ b, chosen b = true ↔
        filters = [] ∨ ∃ f ∈ filters, lower f.toList <:+: lower b.id.toList) ∧
    (∀ b ∈ c.benchmarks, ∀ f ∈ filters, f.toList <:+: b.id.toList → 'Σ' ∉ f.toList →
      b ∈ c.select filters) ∧
    ∀ b ∈ c.benchmarks, ∀ f ∈ filters, ∀ before after,
      b.id.toList = before ++ f.toList ++ after → KeepsSigmas before f.toList after →
        b ∈ c.select filters := by
  refine ⟨c.select_sublist filters, ?_, c.exists_select_eq_filter filters, ?_, ?_⟩
  · rintro rfl
    exact c.select_nil
  · rintro b hb f hf ⟨before, after, hid⟩ hsigma
    exact mem_select_of_keepsSigmas hb hf hid.symm (.of_not_mem hsigma)
  · exact fun b hb f hf before after => mem_select_of_keepsSigmas hb hf

/-- A sigma that ends a word in the filter and in the id. -/
theorem fragments_select_benchmarks_word_end :
    let b := Benchmark.timed (idle "90_ΚΑΣ" "row")
    KeepsSigmas "90_Κ".toList "ΑΣ".toList [] ∧ b ∈ select ⟨[b]⟩ ["ΑΣ"] := by
  intro b
  have hsigmas : KeepsSigmas "90_Κ".toList "ΑΣ".toList [] := by decide +kernel
  have hid : b.id.toList = "90_Κ".toList ++ "ΑΣ".toList ++ [] := by decide +kernel
  obtain ⟨-, -, -, -, hfragments⟩ := fragments_select_benchmarks ⟨[b]⟩ ["ΑΣ"]
  exact ⟨hsigmas, hfragments b List.mem_cons_self "ΑΣ" List.mem_cons_self _ _ hid hsigmas⟩

/-- A sigma that ends the filter but no word of the id: the id contains the filter and is not
selected. -/
theorem sigma_misses_its_word : ¬∀ (c : Catalog) (filters : List String), ∀ b ∈ c.benchmarks,
    ∀ f ∈ filters, f.toList <:+: b.id.toList → b ∈ c.select filters := by
  intro h
  let b := Benchmark.timed (idle "ΑΣΑ" "row")
  have hfragment : "ΑΣ".toList <:+: b.id.toList := by decide +kernel
  have haccepts : accepts "ΑΣ" b.id = false := by decide +kernel
  have hselect : select ⟨[b]⟩ ["ΑΣ"] = [] := by simp [select, haccepts]
  have hmem := h ⟨[b]⟩ ["ΑΣ"] b List.mem_cons_self "ΑΣ" List.mem_cons_self hfragment
  rw [hselect] at hmem
  exact List.not_mem_nil hmem

end PaintBench.Catalog
