import PaintBench.Proofs.Json.Record

/-!
# Members in any order

The fields of an object are read by their names, so the order of its members is of no account, and
neither are members that hold what a missing one stands for. `Rearranged` says which members an
object can have instead of those it was written with; every field is then read as before
(`Rearranged.required`, `Rearranged.withDefault`, `Rearranged.optionalOrMissing`).
-/

namespace PaintBench.Json

/-- Members in any order, where spare ones may be left out. -/
def Rearranged (spare members full : List (String × Json)) : Prop :=
  ∃ dropped, (members ++ dropped).Perm full ∧ ∀ m ∈ dropped, m ∈ spare

theorem findMember_of_mem {members : List (String × Json)} (hnodup : (members.map (·.1)).Nodup)
    {name : String} {j : Json} (hmem : (name, j) ∈ members) : findMember name members = some j := by
  induction members with
  | nil => cases hmem
  | cons m members ih =>
    rw [List.map_cons, List.nodup_cons] at hnodup
    rcases List.mem_cons.mp hmem with rfl | hmem
    · simp [findMember]
    · have hne : m.1 ≠ name := by
        rintro rfl
        exact hnodup.1 (List.mem_map.mpr ⟨_, hmem, rfl⟩)
      rw [findMember, List.find?_cons_of_neg (by simpa using hne)]
      exact ih hnodup.2 hmem

theorem findMember_of_not_mem {members : List (String × Json)} {name : String}
    (h : name ∉ members.map (·.1)) : findMember name members = none := by
  rw [findMember, Option.map_eq_none_iff, List.find?_eq_none]
  intro m hm hname
  exact h (List.mem_map.mpr ⟨m, hm, beq_iff_eq.mp hname⟩)

namespace Rearranged

variable {spare members full : List (String × Json)}

theorem refl (spare full : List (String × Json)) : Rearranged spare full full :=
  ⟨[], by rw [List.append_nil], List.forall_mem_nil _⟩

theorem mem (h : Rearranged spare members full) {m : String × Json} (hm : m ∈ members) :
    m ∈ full := by
  obtain ⟨dropped, hperm, -⟩ := h
  exact hperm.subset (List.mem_append_left _ hm)

theorem map (h : Rearranged spare members full) {f : String × Json → String × Json}
    (hspare : ∀ m ∈ spare, f m = m) : Rearranged spare (members.map f) (full.map f) := by
  obtain ⟨dropped, hperm, hdropped⟩ := h
  refine ⟨dropped, ?_, hdropped⟩
  have hsame : dropped.map f = dropped :=
    (List.map_congr_left fun m hm => hspare m (hdropped m hm)).trans (List.map_id _)
  have := hperm.map f
  rwa [List.map_append, hsame] at this

variable (h : Rearranged spare members full) (hfull : (full.map (·.1)).Nodup)

include h hfull

theorem nodup : (members.map (·.1)).Nodup := by
  obtain ⟨dropped, hperm, -⟩ := h
  have hall := (hperm.map (·.1)).nodup_iff.mpr hfull
  rw [List.map_append] at hall
  exact (List.nodup_append.mp hall).1

/-- A member is found by its name, unless it is a spare one. -/
theorem find {name : String} {j : Json} (hmem : (name, j) ∈ full) :
    findMember name members = some j ∨ findMember name members = none ∧ (name, j) ∈ spare := by
  have hnodup := h.nodup hfull
  obtain ⟨dropped, hperm, hdropped⟩ := h
  rcases List.mem_append.mp (hperm.mem_iff.mpr hmem) with hmem | hmem
  · exact .inl (findMember_of_mem hnodup hmem)
  · refine .inr ⟨findMember_of_not_mem fun hname => ?_, hdropped _ hmem⟩
    have hall := (hperm.map (·.1)).nodup_iff.mpr hfull
    rw [List.map_append] at hall
    exact (List.nodup_append.mp hall).2.2 name hname name (List.mem_map.mpr ⟨_, hmem, rfl⟩) rfl

variable {α : Type} {name : String} {item : Json → Option α} {j : Json} (hmem : (name, j) ∈ full)

include hmem

theorem required {a : α} (hspare : (name, j) ∉ spare) (hitem : item j = some a) :
    Record.required ⟨members, false⟩ name item = some a := by
  rcases h.find hfull hmem with hfind | ⟨-, hmem⟩
  · exact Record.required_of_find hfind hitem
  · exact absurd hmem hspare

theorem withDefault {default a : α} (hspare : (name, j) ∈ spare → a = default)
    (hitem : item j = some a) : Record.withDefault ⟨members, false⟩ name item default = some a := by
  rcases h.find hfull hmem with hfind | ⟨hfind, hmem⟩
  · exact Record.withDefault_of_find hfind hitem
  · rw [Record.withDefault, hfind, hspare hmem]

/-- A field that may be missing, whether or not it can be read. -/
theorem optionalOrMissing (hspare : (name, j) ∈ spare → j = .null) :
    Record.optionalOrMissing ⟨members, false⟩ name item = Decode.orNull item j := by
  rcases h.find hfull hmem with hfind | ⟨hfind, hmem⟩
  · rw [Record.optionalOrMissing, hfind]
  · rw [Record.optionalOrMissing, hfind, hspare hmem]
    rfl

end Rearranged

end PaintBench.Json
