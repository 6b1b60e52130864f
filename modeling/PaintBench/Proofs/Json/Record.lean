import Mathlib.Data.List.Nodup
import PaintBench.Json.Decode

/-!
# Reading fields that were written

A record is written as an object with one member for each field. It is read back step by
step: the object is a record (`Record.of?_obj`), and every field is found by its name and
decoded to what was written.
-/

namespace PaintBench.Json

/-! ## Fields -/

theorem countMember_le_one {members : List (String × Json)} (name : String)
    (h : (members.map (·.1)).Nodup) : countMember name members ≤ 1 := by
  have hcount := List.nodup_iff_count_le_one.mp h name
  rwa [List.count_eq_countP, List.countP_map] at hcount

theorem Record.ofObject?_obj {fields : List String} {members : List (String × Json)}
    (h : (members.map (·.1)).Nodup) :
    Record.ofObject? fields (.obj members) = some ⟨members, false⟩ := by
  have hall : fields.all (fun name => countMember name members ≤ 1) = true := by
    rw [List.all_eq_true]
    exact fun name _ => decide_eq_true (countMember_le_one name h)
  rw [ofObject?, distinctMembers?, if_pos hall]
  rfl

theorem Record.of?_obj {fields : List String} {members : List (String × Json)}
    (h : (members.map (·.1)).Nodup) :
    Record.of? fields (.obj members) = some ⟨members, false⟩ :=
  Record.ofObject?_obj h

namespace Record

variable {α : Type} {r : Record} {name : String} {item : Json → Option α} {j : Json}

theorem required_of_find {a : α} (hfind : findMember name r.members = some j)
    (hitem : item j = some a) : r.required name item = some a := by
  rw [required, hfind]
  exact hitem

theorem withDefault_of_find {default a : α} (hfind : findMember name r.members = some j)
    (hitem : item j = some a) : r.withDefault name item default = some a := by
  rw [withDefault, hfind]
  exact hitem

theorem optional_of_find {a : Option α} (hfind : findMember name r.members = some j)
    (hitem : Decode.orNull item j = some a) : r.optional name item = some a := by
  rw [optional, hfind]
  exact hitem

theorem optionalOrMissing_of_find {a : Option α} (hfind : findMember name r.members = some j)
    (hitem : Decode.orNull item j = some a) : r.optionalOrMissing name item = some a := by
  rw [optionalOrMissing, hfind]
  exact hitem

end Record

/-! ## Values -/

namespace Decode

theorem below_ofNat {bound n : Nat} (h : n < bound) : below bound (.ofNat n) = some n := by
  have hrange : (0 : Int) ≤ n ∧ (n : Int) < bound := by omega
  rw [Json.ofNat, below, if_pos hrange]
  rfl

theorem uint16_ofNat (n : UInt16) : uint16 (.ofNat n.toNat) = some n := by
  rw [uint16, below_ofNat n.toNat_lt_size, Option.map_some, UInt16.ofNat_toNat]

theorem uint32_ofNat (n : UInt32) : uint32 (.ofNat n.toNat) = some n := by
  rw [uint32, below_ofNat n.toNat_lt_size, Option.map_some, UInt32.ofNat_toNat]

theorem uint64_ofNat (n : UInt64) : uint64 (.ofNat n.toNat) = some n := by
  rw [uint64, below_ofNat n.toNat_lt_size, Option.map_some, UInt64.ofNat_toNat]

theorem orNull_of_ne_null {α : Type} {item : Json → Option α} {j : Json} (h : j ≠ .null) :
    orNull item j = (item j).map some := by
  rw [orNull]
  exact h

theorem orNull_ofOption {o : Option String} : orNull text (.ofOption .str o) = some o := by
  cases o <;> rfl

theorem items_map_str (texts : List String) : items text (texts.map .str) = some texts := by
  induction texts with
  | nil => rfl
  | cons s texts ih => rw [List.map_cons, items, ih, text]

theorem list_ofStrings (texts : List String) : list text (.ofStrings texts) = some texts :=
  items_map_str texts

end Decode

end PaintBench.Json
