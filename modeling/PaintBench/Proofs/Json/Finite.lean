import PaintBench.Json.Decode
import PaintBench.Json.Parser
import PaintBench.Proofs.Decimal.Finite

/-!
# Values with finite numbers

A JSON text has no infinite numbers and nothing that is no number, and neither has a value that
was read from a text (`hasFiniteNumbers_of_parse?`). Parts of such a value are of the same kind.
-/

namespace PaintBench.Json

/-- All numbers in a value are finite. -/
inductive HasFiniteNumbers : Json → Prop where
  | null : HasFiniteNumbers .null
  | bool (b : Bool) : HasFiniteNumbers (.bool b)
  | num {n : Number} (finite : n.toFloat.isFinite = true) : HasFiniteNumbers (.num n)
  | str (s : String) : HasFiniteNumbers (.str s)
  | arr {items : List Json} (finite : ∀ j ∈ items, HasFiniteNumbers j) :
    HasFiniteNumbers (.arr items)
  | obj {members : List (String × Json)} (finite : ∀ m ∈ members, HasFiniteNumbers m.2) :
    HasFiniteNumbers (.obj members)
  | unreadable : HasFiniteNumbers .unreadable

/-! ## Reading -/

theorem HasFiniteNumbers.ofFinite (x : Float) : HasFiniteNumbers (ofFinite x) := by
  rw [Json.ofFinite]
  split
  · next h => exact .num (Decimal.isFinite_of_isFinite h)
  · exact .unreadable

/-- A significand keeps to 64 bits. -/
theorem appendDigits_lt (ds : List Char) {significand : Nat} (h : significand < UInt64.size) :
    (Decimal.appendDigits significand ds).1 < UInt64.size := by
  induction ds generalizing significand with
  | nil => exact h
  | cons c ds ih =>
    rw [Decimal.appendDigits]
    split
    · next hlonger => exact ih hlonger
    · exact h

/-- Whole numbers of 64 bits are finite. -/
theorem HasFiniteNumbers.whole {n : Int} (h : n.natAbs < UInt64.size) :
    HasFiniteNumbers (.num (.whole n)) := by
  refine .num ?_
  rw [Number.toFloat]
  exact Decimal.isFinite_ofInt h

theorem HasFiniteNumbers.ofLiteral (negative : Bool) (whole fraction : List Char)
    (exponent : Option Int) : HasFiniteNumbers (ofLiteral negative whole fraction exponent) := by
  have hlt : (Decimal.appendDigits 0 whole).1 < UInt64.size := appendDigits_lt whole (by decide)
  rw [Json.ofLiteral]
  generalize Decimal.appendDigits 0 whole = kept at hlt ⊢
  obtain ⟨significand, skipped⟩ := kept
  dsimp only at hlt ⊢
  have hwhole : (if negative then -significand else significand : Int).natAbs = significand := by
    cases negative <;> simp
  generalize (if negative then -significand else significand : Int) = n at hwhole ⊢
  split
  · split
    · exact .ofFinite _
    · exact .whole (hwhole.symm ▸ hlt)
  · exact .ofFinite _

theorem hasFiniteNumbers_of_scalar? {s r : List Char} {j : Json} (h : scalar? s = some (j, r)) :
    HasFiniteNumbers j := by
  unfold scalar? at h
  split at h
  · cases h
    exact .null
  · cases h
    exact .bool true
  · cases h
    exact .bool false
  · obtain ⟨⟨text, r'⟩, -, heq⟩ := Option.map_eq_some_iff.mp h
    cases heq
    cases text with
    | none => exact .unreadable
    | some text => exact .str text
  · obtain ⟨_, -, h⟩ := Option.bind_eq_some_iff.mp h
    obtain ⟨_, -, h⟩ := Option.bind_eq_some_iff.mp h
    obtain ⟨_, -, heq⟩ := Option.bind_eq_some_iff.mp h
    cases heq
    exact .ofLiteral ..

/-- What is read in some steps has finite numbers. -/
theorem hasFiniteNumbers_of_value {steps : Nat} :
    (∀ {depth s j r}, value steps depth s = some (j, r) → HasFiniteNumbers j) ∧
    (∀ {depth : Nat} {read s items r}, (∀ j ∈ read, HasFiniteNumbers j) →
      itemsTail steps depth read s = some (items, r) → ∀ j ∈ items, HasFiniteNumbers j) ∧
    ∀ {depth read s members r}, (∀ known ∈ read, ∀ m ∈ known, HasFiniteNumbers m.2) →
      membersTail steps depth read s = some (members, r) →
      ∀ known ∈ members, ∀ m ∈ known, HasFiniteNumbers m.2 := by
  induction steps with
  | zero => exact ⟨nofun, nofun, nofun⟩
  | succ steps ih =>
    obtain ⟨ihvalue, ihitems, ihmembers⟩ := ih
    refine ⟨fun {depth s j r} h => ?_, fun {depth read s items r} hread h => ?_,
      fun {depth read s members r} hread h => ?_⟩
    · unfold value at h
      split at h
      · split at h
        · obtain ⟨r', -, heq⟩ := Option.map_eq_some_iff.mp h
          cases heq
          exact .unreadable
        · split at h
          · cases h
            exact .arr (List.forall_mem_nil _)
          · obtain ⟨⟨items, r'⟩, hitems, heq⟩ := Option.map_eq_some_iff.mp h
            cases heq
            exact .arr (ihitems (List.forall_mem_nil _) hitems)
      · split at h
        · obtain ⟨r', -, heq⟩ := Option.map_eq_some_iff.mp h
          cases heq
          exact .unreadable
        · split at h
          · cases h
            exact .obj (List.forall_mem_nil _)
          · obtain ⟨⟨members, r'⟩, hmembers, heq⟩ := Option.map_eq_some_iff.mp h
            cases heq
            cases members with
            | none => exact .unreadable
            | some members =>
              refine .obj (ihmembers ?_ hmembers members rfl)
              rintro _ ⟨⟩ m hm
              cases hm
      · exact hasFiniteNumbers_of_scalar? h
    · rw [itemsTail, Option.bind_eq_bind, Option.bind_eq_some_iff] at h
      obtain ⟨⟨j, r'⟩, hvalue, h⟩ := h
      have hnext : ∀ item ∈ j :: read, HasFiniteNumbers item := by
        intro item hitem
        rcases List.mem_cons.mp hitem with rfl | hitem
        · exact ihvalue hvalue
        · exact hread item hitem
      dsimp only at h
      split at h
      · exact ihitems hnext h
      · cases h
        exact fun item hitem => hnext item (List.mem_reverse.mp hitem)
      · cases h
    · simp only [membersTail, Option.bind_eq_bind, Option.bind_eq_some_iff] at h
      obtain ⟨⟨name, r'⟩, -, ⟨j, r''⟩, hvalue, h⟩ := h
      have hnext : ∀ known ∈ name.bind fun name => read.map ((name, j) :: ·),
          ∀ m ∈ known, HasFiniteNumbers m.2 := by
        intro known hknown m hm
        obtain ⟨name, -, hknown⟩ := Option.bind_eq_some_iff.mp hknown
        obtain ⟨known', hknown', rfl⟩ := Option.map_eq_some_iff.mp hknown
        rcases List.mem_cons.mp hm with rfl | hm
        · exact ihvalue hvalue
        · exact hread known' hknown' m hm
      dsimp only at h
      split at h
      · exact ihmembers hnext h
      · cases h
        intro known hknown m hm
        obtain ⟨known', hknown', rfl⟩ := Option.map_eq_some_iff.mp hknown
        exact hnext known' hknown' m (List.mem_reverse.mp hm)
      · cases h

/-- What was read from a text has finite numbers. -/
theorem hasFiniteNumbers_of_parse? {text : String} {j : Json} (h : parse? text = some j) :
    HasFiniteNumbers j := by
  rw [parse?, parseChars?] at h
  split at h
  · next hvalue =>
    split at h <;> cases h
    exact hasFiniteNumbers_of_value.1 hvalue
  · cases h

/-! ## Parts of a value -/

theorem lastWinsItems_eq_map (items : List Json) : lastWinsItems items = items.map lastWins := by
  induction items with
  | nil => rfl
  | cons j items ih => rw [lastWinsItems, ih, List.map_cons]

theorem lastWinsMembers_eq_map (members : List (String × Json)) :
    lastWinsMembers members = members.map fun m => (m.1, lastWins m.2) := by
  induction members with
  | nil => rfl
  | cons m members ih => rw [lastWinsMembers, ih, List.map_cons]

theorem dropShadowed_sublist (members : List (String × Json)) :
    (dropShadowed members).Sublist members := by
  induction members with
  | nil => exact .slnil
  | cons m members ih =>
    rw [dropShadowed]
    split
    · exact ih.cons m
    · exact ih.cons_cons m

namespace HasFiniteNumbers

variable {j part : Json}

theorem lastWins (h : HasFiniteNumbers j) : HasFiniteNumbers j.lastWins := by
  induction h with
  | arr _ ih =>
    rw [Json.lastWins, lastWinsItems_eq_map]
    exact .arr (List.forall_mem_map.mpr ih)
  | obj _ ih =>
    rw [Json.lastWins, lastWinsMembers_eq_map]
    refine .obj fun m hm => ?_
    obtain ⟨member, hmember, rfl⟩ := List.mem_map.mp ((dropShadowed_sublist _).subset hm)
    exact ih member hmember
  | null => exact .null
  | bool b => exact .bool b
  | num h => exact .num h
  | str s => exact .str s
  | unreadable => exact .unreadable

theorem get? (h : HasFiniteNumbers j) {name : String} (hpart : j.get? name = some part) :
    HasFiniteNumbers part := by
  cases h with
  | obj finite =>
    obtain ⟨m, hm, rfl⟩ := Option.map_eq_some_iff.mp hpart
    exact finite m (List.mem_reverse.mp (List.mem_of_find?_eq_some hm))
  | null | bool | num | str | arr | unreadable => cases hpart

theorem at? {path : List String} (h : HasFiniteNumbers j) (hpart : j.at? path = some part) :
    HasFiniteNumbers part := by
  induction path generalizing j with
  | nil =>
    cases hpart
    exact h
  | cons name path ih =>
    obtain ⟨member, hmember, hrest⟩ := Option.bind_eq_some_iff.mp hpart
    exact ih (h.get? hmember) hrest

theorem isFinite_of_float? (h : HasFiniteNumbers j) {x : Float} (hx : j.float? = some x) :
    x.isFinite = true := by
  cases h with
  | num finite =>
    cases hx
    exact finite
  | null | bool | str | arr | obj | unreadable => cases hx

theorem isFinite_of_float (h : HasFiniteNumbers j) {x : Float} (hx : Decode.float j = some x) :
    x.isFinite = true := by
  cases h with
  | num finite =>
    cases hx
    exact finite
  | null | bool | str | arr | obj | unreadable => cases hx

end HasFiniteNumbers

/-! ## Fields of a record -/

namespace Record

variable {r : Record} {fields : List String} {name : String} {α : Type} {item : Json → Option α}
  {a : α}

/-- All numbers in a record are finite. -/
def HasFiniteNumbers (r : Record) : Prop :=
  ∀ m ∈ r.members, m.2.HasFiniteNumbers

theorem hasFiniteNumbers_of_ofObject? {j : Json} (h : j.HasFiniteNumbers)
    (hr : ofObject? fields j = some r) : r.HasFiniteNumbers := by
  obtain ⟨members, hmembers, rfl⟩ := Option.map_eq_some_iff.mp hr
  cases h with
  | obj finite =>
    rw [distinctMembers?] at hmembers
    split at hmembers <;> cases hmembers
    exact finite
  | null | bool | num | str | arr | unreadable => cases hmembers

theorem hasFiniteNumbers_of_of? {j : Json} (h : j.HasFiniteNumbers)
    (hr : of? fields j = some r) : r.HasFiniteNumbers := by
  cases h with
  | @arr values finite =>
    rw [of?] at hr
    split at hr <;> cases hr
    exact fun m hm => finite m.2 (List.of_mem_zip hm).2
  | obj finite => exact hasFiniteNumbers_of_ofObject? (.obj finite) hr
  | null | bool | num | str | unreadable => cases hr

theorem hasFiniteNumbers_of_findMember (h : r.HasFiniteNumbers) {j : Json}
    (hj : findMember name r.members = some j) : j.HasFiniteNumbers := by
  obtain ⟨m, hm, rfl⟩ := Option.map_eq_some_iff.mp hj
  exact h m (List.mem_of_find?_eq_some hm)

theorem exists_of_required (h : r.HasFiniteNumbers) (ha : r.required name item = some a) :
    ∃ j, j.HasFiniteNumbers ∧ item j = some a := by
  obtain ⟨j, hj, hitem⟩ := Option.bind_eq_some_iff.mp ha
  exact ⟨j, hasFiniteNumbers_of_findMember h hj, hitem⟩

theorem exists_of_withDefault (h : r.HasFiniteNumbers) {default : α}
    (ha : r.withDefault name item default = some a) :
    a = default ∨ ∃ j, j.HasFiniteNumbers ∧ item j = some a := by
  rw [withDefault] at ha
  split at ha
  · cases ha
    exact Or.inl rfl
  · next j hj => exact Or.inr ⟨j, hasFiniteNumbers_of_findMember h hj, ha⟩

theorem exists_of_optional (h : r.HasFiniteNumbers) (ha : r.optional name item = some (some a)) :
    ∃ j, j.HasFiniteNumbers ∧ item j = some a := by
  rw [optional] at ha
  split at ha
  · split at ha <;> cases ha
  · next j hj =>
    refine ⟨j, hasFiniteNumbers_of_findMember h hj, ?_⟩
    unfold Decode.orNull at ha
    split at ha
    · cases ha
    · simpa using ha

end Record

end PaintBench.Json
