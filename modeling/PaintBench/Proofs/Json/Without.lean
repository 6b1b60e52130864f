import PaintBench.Proofs.Json.RoundTrip
import PaintBench.Proofs.Json.Record

/-!
# Objects without some of their members

`without` takes the members of some names out of an object. A field whose member was taken out
reads as its default, and every other field as before (`Record.withDefault_without`,
`Record.optionalOrMissing_without`).
-/

namespace PaintBench.Json

/-- An object without the members of some names. -/
def without (removed : List String) : Json → Json
  | .obj members => .obj (members.filter (·.1 ∉ removed))
  | j => j

/-- An object with the members of a name changed. -/
def mapMember (name : String) (f : Json → Json) : Json → Json
  | .obj members => .obj (members.map fun m => if m.1 = name then (m.1, f m.2) else m)
  | j => j

/-! ## Fields -/

variable {members : List (String × Json)} {removed : List String} {name : String}

theorem findMember_filter : findMember name (members.filter (·.1 ∉ removed)) =
    if name ∈ removed then none else findMember name members := by
  rw [findMember, findMember, List.find?_filter]
  split
  · next hremoved =>
    rw [Option.map_eq_none_iff, List.find?_eq_none]
    intro m _ hm
    simp only [Bool.decide_and, Bool.and_eq_true, decide_eq_true_eq, beq_iff_eq] at hm
    exact hm.1 (hm.2 ▸ hremoved)
  · next hkept =>
    congr 2
    funext m
    rw [Bool.eq_iff_iff]
    simp only [decide_eq_true_eq, beq_iff_eq, and_iff_right_iff_imp]
    rintro rfl
    exact hkept

namespace Record

theorem of?_without {fields : List String} (h : (members.map (·.1)).Nodup) :
    of? fields (without removed (.obj members)) =
      some ⟨members.filter (·.1 ∉ removed), false⟩ :=
  of?_obj (h.sublist (List.filter_sublist.map _))

variable {α : Type} {item : Json → Option α} {j : Json} (hfind : findMember name members = some j)

include hfind

/-- A field whose member was removed is missing, and the others are read. -/
theorem withDefault_without {default a : α} (hitem : item j = some a) :
    withDefault ⟨members.filter (·.1 ∉ removed), false⟩ name item default =
      some (if name ∈ removed then default else a) := by
  rw [withDefault, findMember_filter, hfind]
  by_cases hname : name ∈ removed
  · rw [if_pos hname, if_pos hname]
  · rw [if_neg hname, if_neg hname]
    exact hitem

theorem optionalOrMissing_without {a : Option α} (hitem : Decode.orNull item j = some a) :
    optionalOrMissing ⟨members.filter (·.1 ∉ removed), false⟩ name item =
      some (if name ∈ removed then none else a) := by
  rw [optionalOrMissing, findMember_filter, hfind]
  by_cases hname : name ∈ removed
  · rw [if_pos hname, if_pos hname]
  · rw [if_neg hname, if_neg hname]
    exact hitem

end Record

/-! ## Plain values -/

theorem Plain.without {depth : Nat} {j : Json} (h : Plain depth j) (removed : List String) :
    Plain depth (j.without removed) := by
  cases j with
  | obj members =>
    cases h with
    | obj plain => exact .obj fun m hm => plain m (List.mem_of_mem_filter hm)
  | null | bool _ | num _ | str _ | arr _ | unreadable => exact h

theorem Plain.mapMember {depth : Nat} {j : Json} {f : Json → Json} (h : Plain (depth + 1) j)
    (name : String) (hf : ∀ v, Plain depth v → Plain depth (f v)) :
    Plain (depth + 1) (j.mapMember name f) := by
  cases j with
  | obj members =>
    refine .obj fun m hm => ?_
    obtain ⟨m', hm', rfl⟩ := List.mem_map.mp hm
    have hplain := Plain.obj_iff.mp h m' hm'
    split
    · exact hf _ hplain
    · exact hplain
  | null | bool _ | num _ | str _ | arr _ | unreadable => exact h

end PaintBench.Json
