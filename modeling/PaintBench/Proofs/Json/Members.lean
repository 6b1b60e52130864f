import PaintBench.Proofs.Json.Record

/-!
# Fields by their members

What a field reads is a matter of the members that have its name. `valuesOf` lists what they
hold. A record has at most one member for each of its fields (`Record.ofObject?_eq_some_iff`),
a required field exactly one (`Record.required_eq_some_iff`), and an optional one may have none
(`Record.optional_eq_some_iff`).
-/

namespace PaintBench.Json

/-- What the members of a name hold, in their order. -/
def valuesOf (name : String) (members : List (String × Json)) : List Json :=
  (members.filter (·.1 == name)).map (·.2)

theorem countMember_eq (name : String) (members : List (String × Json)) :
    countMember name members = (valuesOf name members).length := by
  rw [countMember, valuesOf, List.length_map, List.countP_eq_length_filter]

theorem findMember_eq (name : String) (members : List (String × Json)) :
    findMember name members = (valuesOf name members).head? := by
  rw [findMember, valuesOf, List.head?_map, List.head?_filter]

/-- The first of a name that is not repeated is the only one. -/
theorem findMember_eq_some_iff {name : String} {members : List (String × Json)} {j : Json}
    (h : (valuesOf name members).length ≤ 1) :
    findMember name members = some j ↔ valuesOf name members = [j] := by
  rw [findMember_eq]
  rcases hvalues : valuesOf name members with _ | ⟨first, _ | ⟨second, rest⟩⟩
  · simp
  · simp
  · rw [hvalues] at h
    simp at h

theorem findMember_eq_none_iff {name : String} {members : List (String × Json)} :
    findMember name members = none ↔ valuesOf name members = [] := by
  rw [findMember_eq, List.head?_eq_none_iff]

namespace Record

/-- An object is a record of some fields if it has each of them at most once. -/
theorem ofObject?_eq_some_iff {fields : List String} {j : Json} {r : Record} :
    ofObject? fields j = some r ↔ ∃ members, j = .obj members ∧ r = ⟨members, false⟩ ∧
      ∀ name ∈ fields, (valuesOf name members).length ≤ 1 := by
  cases j with
  | obj members =>
    simp only [ofObject?, distinctMembers?, Option.map_eq_some_iff, Option.ite_none_right_eq_some,
      List.all_eq_true, decide_eq_true_eq, countMember_eq]
    constructor
    · rintro ⟨_, ⟨hdistinct, hmembers⟩, rfl⟩
      cases hmembers
      exact ⟨members, rfl, rfl, hdistinct⟩
    · rintro ⟨_, hobj, rfl, hdistinct⟩
      cases hobj
      exact ⟨members, ⟨hdistinct, rfl⟩, rfl⟩
  | null | bool _ | num _ | str _ | arr _ | unreadable => simp [ofObject?, distinctMembers?]

variable {α : Type} {members members' : List (String × Json)} {name : String}
  {item : Json → Option α}

/-- The record that an object is, if it is one. -/
theorem ofObject?_eq_ite (fields : List String) (members : List (String × Json)) :
    ofObject? fields (.obj members) =
      if ∀ name ∈ fields, (valuesOf name members).length ≤ 1 then some ⟨members, false⟩
      else none := by
  simp only [ofObject?, distinctMembers?, List.all_eq_true, decide_eq_true_eq, countMember_eq]
  split <;> rfl

theorem required_eq (r : Record) (name : String) (item : Json → Option α) :
    r.required name item = (valuesOf name r.members).head?.bind item := by
  rw [required, findMember_eq]

theorem required_congr (h : valuesOf name members' = valuesOf name members) (listed : Bool) :
    required ⟨members', listed⟩ name item = required ⟨members, listed⟩ name item := by
  simp only [required, findMember_eq, h]

theorem optional_congr (h : valuesOf name members' = valuesOf name members) (listed : Bool) :
    optional ⟨members', listed⟩ name item = optional ⟨members, listed⟩ name item := by
  simp only [optional, findMember_eq, h]

theorem withDefault_congr (h : valuesOf name members' = valuesOf name members) (listed : Bool)
    (default : α) :
    withDefault ⟨members', listed⟩ name item default =
      withDefault ⟨members, listed⟩ name item default := by
  simp only [withDefault, findMember_eq, h]

/-- A field that is taken as it is. -/
theorem withDefault_some (r : Record) (name : String) (default : Json) :
    r.withDefault name some default =
      some ((valuesOf name r.members).head?.getD default) := by
  rw [withDefault, ← findMember_eq]
  cases findMember name r.members <;> rfl

theorem required_eq_some_iff {listed : Bool} {a : α} (h : (valuesOf name members).length ≤ 1) :
    required ⟨members, listed⟩ name item = some a ↔
      ∃ j, valuesOf name members = [j] ∧ item j = some a := by
  simp only [required, Option.bind_eq_some_iff, findMember_eq_some_iff h]

/-- A field that may be null, in an object. -/
theorem optional_eq_some_iff {o : Option α} (h : (valuesOf name members).length ≤ 1) :
    optional ⟨members, false⟩ name item = some o ↔
      (valuesOf name members = [] ∧ o = none) ∨
      ∃ j, valuesOf name members = [j] ∧ Decode.orNull item j = some o := by
  cases hfind : findMember name members with
  | none =>
    have hnone := findMember_eq_none_iff.mp hfind
    simp [optional, hfind, hnone, eq_comm]
  | some j =>
    have hone := (findMember_eq_some_iff h).mp hfind
    simp [optional, hfind, hone]

end Record

namespace Decode

theorem text_eq_some_iff {j : Json} {s : String} : text j = some s ↔ j = .str s := by
  cases j <;> simp [text]

theorem orNull_text_eq_some_iff {j : Json} {o : Option String} :
    orNull text j = some o ↔ j = .ofOption .str o := by
  cases o <;> cases j <;> simp [orNull, text, ofOption]

theorem items_text_eq_some_iff {js : List Json} {texts : List String} :
    items text js = some texts ↔ js = texts.map .str := by
  constructor
  · intro h
    induction js generalizing texts with
    | nil =>
      cases h
      rfl
    | cons j js ih =>
      rw [items] at h
      split at h
      · next s later hs hlater =>
        cases h
        rw [text_eq_some_iff.mp hs, ih hlater]
        rfl
      · cases h
  · rintro rfl
    exact items_map_str texts

theorem list_text_eq_some_iff {j : Json} {texts : List String} :
    list text j = some texts ↔ j = .ofStrings texts := by
  cases j <;> simp [list, ofStrings, items_text_eq_some_iff]

end Decode

end PaintBench.Json
