import PaintBench.Proofs.Json.Finite
import PaintBench.Proofs.Json.Members

/-!
# Objects with more members

An object can be given members of names that nobody asks for, and the values of the others can be
given more members in turn (`Extended`, `Widened`). What is read by one of the known names stays the
same up to that (`Extended.forall₂_valuesOf`, `Extended.valuesOf_eq`), also in a free-form value,
where the last member of a name counts (`Extended.rel_lastMember`, `valuesOf_lastWins`).
-/

namespace PaintBench.Json

/-- Members of other names than the known ones were added to some members, anywhere between them.
The values of the members that were there may have changed. -/
inductive Extended (known : List String) (changed : String → Json → Json → Prop) :
    List (String × Json) → List (String × Json) → Prop where
  | nil : Extended known changed [] []
  | keep {name : String} {j j' : Json} {members members' : List (String × Json)} :
    changed name j j' → Extended known changed members members' →
    Extended known changed ((name, j) :: members) ((name, j') :: members')
  | add {name : String} (j : Json) {members members' : List (String × Json)} :
    name ∉ known → Extended known changed members members' →
    Extended known changed members ((name, j) :: members')

/-- A value as it was, or an object with more members. -/
inductive Widened (known : List String) (changed : String → Json → Json → Prop) :
    Json → Json → Prop where
  | same (j : Json) : Widened known changed j j
  | obj {members members' : List (String × Json)} :
    Extended known changed members members' →
    Widened known changed (.obj members) (.obj members')

theorem valuesOf_cons (name other : String) (j : Json) (members : List (String × Json)) :
    valuesOf name ((other, j) :: members) =
      if other = name then j :: valuesOf name members else valuesOf name members := by
  by_cases h : other = name <;> simp [valuesOf, h]

/-! ## Readable values -/

theorem membersAreReadable_iff {members : List (String × Json)} :
    membersAreReadable members ↔ ∀ m ∈ members, m.2.isReadable := by
  induction members with
  | nil => simp [membersAreReadable]
  | cons m members ih => simp [membersAreReadable, ih]

theorem isReadable_of_mem_valuesOf {name : String} {members : List (String × Json)} {j : Json}
    (h : (obj members).isReadable) (hj : j ∈ valuesOf name members) : j.isReadable := by
  obtain ⟨m, hm, rfl⟩ := List.mem_map.mp hj
  exact membersAreReadable_iff.mp h m (List.mem_of_mem_filter hm)

namespace Extended

variable {known : List String} {changed : String → Json → Json → Prop}
  {members members' : List (String × Json)}

/-- What can be read with more members could be read without them. -/
theorem isReadable (h : Extended known changed members members')
    (hchanged : ∀ name j j', changed name j j' → j'.isReadable → j.isReadable)
    (hreadable : (obj members').isReadable) : (obj members).isReadable := by
  have hmembers : membersAreReadable members' := hreadable
  change membersAreReadable members
  induction h with
  | nil => rfl
  | keep hvalue _ ih =>
    obtain ⟨hj, hrest⟩ := (Bool.and_eq_true _ _).mp hmembers
    exact (Bool.and_eq_true _ _).mpr ⟨hchanged _ _ _ hvalue hj, ih hrest hrest⟩
  | add _ _ _ ih =>
    obtain ⟨-, hrest⟩ := (Bool.and_eq_true _ _).mp hmembers
    exact ih hrest hrest

/-- The members of a known name are the ones that were there. -/
theorem forall₂_valuesOf (h : Extended known changed members members') {name : String}
    (hname : name ∈ known) :
    List.Forall₂ (changed name) (valuesOf name members) (valuesOf name members') := by
  induction h with
  | nil => exact .nil
  | @keep other j j' _ _ hvalue _ ih =>
    rw [valuesOf_cons, valuesOf_cons]
    by_cases hother : other = name
    · subst hother
      simpa using ⟨hvalue, ih⟩
    · simpa [hother] using ih
  | @add other j _ _ hother _ ih =>
    have hne : other ≠ name := fun heq => hother (heq ▸ hname)
    rw [valuesOf_cons, if_neg hne]
    exact ih

theorem valuesOf_eq (h : Extended known changed members members') {name : String}
    (hname : name ∈ known) (hsame : ∀ j j', changed name j j' → j' = j) :
    valuesOf name members' = valuesOf name members := by
  have hvalues : List.Forall₂ (fun j j' => j = j') (valuesOf name members)
      (valuesOf name members') :=
    (h.forall₂_valuesOf hname).imp fun j j' hj => (hsame j j' hj).symm
  rw [List.forall₂_eq_eq_eq] at hvalues
  exact hvalues.symm

end Extended

theorem Widened.isReadable {known : List String} {changed : String → Json → Json → Prop}
    {j j' : Json} (h : Widened known changed j j')
    (hchanged : ∀ name j j', changed name j j' → j'.isReadable → j.isReadable)
    (hreadable : j'.isReadable) : j.isReadable := by
  cases h with
  | same => exact hreadable
  | obj hmembers => exact hmembers.isReadable hchanged hreadable

/-! ## Free-form values -/

theorem lastMember_eq (name : String) (members : List (String × Json)) :
    lastMember name members = (valuesOf name members).getLast? := by
  rw [lastMember, valuesOf, List.getLast?_map, List.getLast?_eq_head?_reverse,
    ← List.filter_reverse, List.head?_filter]

/-- Of the members of a name the last one is left. -/
theorem valuesOf_dropShadowed (name : String) (members : List (String × Json)) :
    valuesOf name (dropShadowed members) = (valuesOf name members).getLast?.toList := by
  induction members with
  | nil => rfl
  | cons m members ih =>
    obtain ⟨other, j⟩ := m
    rw [dropShadowed, valuesOf_cons]
    have hany : members.any (·.1 == other) = true ↔ valuesOf other members ≠ [] := by
      simp [valuesOf]
    split
    · next hshadowed =>
      rw [ih]
      split
      · next hname =>
        subst hname
        rw [List.getLast?_cons_of_ne_nil (hany.mp hshadowed)]
      · rfl
    · next hlast =>
      rw [valuesOf_cons, ih]
      split
      · next hname =>
        subst hname
        rw [not_not.mp (mt hany.mpr hlast)]
        rfl
      · rfl

theorem valuesOf_lastWinsMembers (name : String) (members : List (String × Json)) :
    valuesOf name (lastWinsMembers members) = (valuesOf name members).map lastWins := by
  induction members with
  | nil => rfl
  | cons m members ih =>
    rw [lastWinsMembers, valuesOf_cons, valuesOf_cons, ih]
    split <;> rfl

/-- The members of the free form of an object: one of each name, the last one. -/
theorem valuesOf_lastWins (name : String) (members : List (String × Json)) :
    valuesOf name (dropShadowed (lastWinsMembers members)) =
      ((lastMember name members).map lastWins).toList := by
  rw [valuesOf_dropShadowed, valuesOf_lastWinsMembers, List.getLast?_map, lastMember_eq]

/-- The last members of a known name differ in what was changed. -/
theorem Extended.rel_lastMember {known : List String} {changed : String → Json → Json → Prop}
    {members members' : List (String × Json)} (h : Extended known changed members members')
    {name : String} (hname : name ∈ known) :
    Option.Rel (changed name) (lastMember name members) (lastMember name members') := by
  rw [lastMember_eq, lastMember_eq, List.getLast?_eq_head?_reverse,
    List.getLast?_eq_head?_reverse]
  generalize hvalues : (valuesOf name members).reverse = values
  generalize hvalues' : (valuesOf name members').reverse = values'
  have hrel : List.Forall₂ (changed name) values values' :=
    hvalues ▸ hvalues' ▸ List.forall₂_reverse_iff.mpr (h.forall₂_valuesOf hname)
  cases hrel with
  | nil => exact .none
  | cons hlast _ => exact .some hlast

theorem get?_lastWins (name : String) (members : List (String × Json)) :
    (obj members).lastWins.get? name = (lastMember name members).map lastWins := by
  rw [lastWins, get?, lastMember_eq, valuesOf_lastWins]
  cases lastMember name members <;> rfl

end PaintBench.Json
