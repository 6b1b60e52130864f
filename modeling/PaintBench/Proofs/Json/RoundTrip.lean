import Mathlib.Data.List.Forall2
import PaintBench.Proofs.Json.Scalar

/-!
# Reading values that were written

What the reader consumes of a text is exactly what the writer put there, whatever stands behind
it. `ReadsAs depth j k` says so of a value `j` that is read as `k`; lists and objects are read
part by part (`ReadsAs.arr`, `ReadsAs.obj`).

`Plain depth j` holds of the values whose numbers are whole ones of 64 bits, with at most
`depth` brackets inside each other. They are read as themselves (`Plain.readsAs`), so they
survive being written and read (`parseChars?_write`). They are written without any control
character (`Plain.printable_write`).
-/

namespace PaintBench.Json

open Decimal

/-- Values without fractions, with at most so many brackets inside each other. -/
inductive Plain : Nat → Json → Prop where
  | null {depth : Nat} : Plain depth .null
  | bool {depth : Nat} (b : Bool) : Plain depth (.bool b)
  | whole {depth : Nat} {n : Int} (low : Int64.minValue.toInt ≤ n) (high : n < UInt64.size) :
    Plain depth (.num (.whole n))
  | str {depth : Nat} (s : String) : Plain depth (.str s)
  | arr {depth : Nat} {items : List Json} (plain : ∀ j ∈ items, Plain depth j) :
    Plain (depth + 1) (.arr items)
  | obj {depth : Nat} {members : List (String × Json)}
    (plain : ∀ m ∈ members, Plain depth m.2) : Plain (depth + 1) (.obj members)

namespace Plain

attribute [simp] null bool str

@[simp] theorem obj_iff {depth : Nat} {members : List (String × Json)} :
    Plain (depth + 1) (.obj members) ↔ ∀ m ∈ members, Plain depth m.2 := by
  constructor
  · intro h
    cases h with
    | obj plain => exact plain
  · exact obj

theorem ofNat {depth n : Nat} (h : n < UInt64.size) : Plain depth (.ofNat n) :=
  whole (Int.le_trans (by decide) (Int.natCast_nonneg n)) (Int.ofNat_lt.mpr h)

@[simp] theorem ofNat_uint16 {depth : Nat} (n : UInt16) : Plain depth (.ofNat n.toNat) :=
  ofNat (Nat.lt_trans n.toNat_lt_size (by decide))

@[simp] theorem ofNat_uint32 {depth : Nat} (n : UInt32) : Plain depth (.ofNat n.toNat) :=
  ofNat (Nat.lt_trans n.toNat_lt_size (by decide))

@[simp] theorem ofNat_uint64 {depth : Nat} (n : UInt64) : Plain depth (.ofNat n.toNat) :=
  ofNat n.toNat_lt_size

@[simp] theorem ofOption_str {depth : Nat} (o : Option String) :
    Plain depth (.ofOption .str o) := by
  cases o with
  | none => exact null
  | some s => exact str s

@[simp] theorem ofStrings {depth : Nat} (texts : List String) :
    Plain (depth + 1) (.ofStrings texts) := by
  refine arr fun j hj => ?_
  obtain ⟨s, -, rfl⟩ := List.mem_map.mp hj
  exact str s

end Plain

/-! ## What is written -/

theorem areReadable_of_forall {items : List Json} (h : ∀ j ∈ items, isReadable j) :
    areReadable items := by
  induction items with
  | nil => rfl
  | cons j items ih =>
    rw [areReadable, h j (List.mem_cons_self ..), Bool.true_and]
    exact ih fun k hk => h k (List.mem_cons_of_mem j hk)

theorem membersAreReadable_of_forall {members : List (String × Json)}
    (h : ∀ m ∈ members, isReadable m.2) : membersAreReadable members := by
  induction members with
  | nil => rfl
  | cons m members ih =>
    rw [membersAreReadable, h m (List.mem_cons_self ..), Bool.true_and]
    exact ih fun k hk => h k (List.mem_cons_of_mem m hk)

theorem Plain.isReadable {depth : Nat} {j : Json} (h : Plain depth j) : j.isReadable := by
  induction h with
  | null => rfl
  | bool b => rfl
  | whole low high => rfl
  | str s => rfl
  | arr plain ih => exact areReadable_of_forall ih
  | obj plain ih => exact membersAreReadable_of_forall ih

theorem printable_writeItems {items : List Json} (h : ∀ j ∈ items, Printable (write j)) :
    Printable (writeItems items) := by
  induction items with
  | nil => exact .cons (by decide) .nil
  | cons j items ih =>
    rw [writeItems]
    exact (Printable.cons (by decide) (h j (List.mem_cons_self ..))).append
      (ih fun k hk => h k (List.mem_cons_of_mem j hk))

theorem printable_writeMembers {members : List (String × Json)}
    (h : ∀ m ∈ members, Printable (write m.2)) : Printable (writeMembers members) := by
  induction members with
  | nil => exact .cons (by decide) .nil
  | cons m members ih =>
    rw [writeMembers]
    exact ((Printable.cons (by decide) (printable_quote m.1)).append
      (.cons (by decide) (h m (List.mem_cons_self ..)))).append
      (ih fun k hk => h k (List.mem_cons_of_mem m hk))

/-- A value is written on one line. -/
theorem Plain.printable_write {depth : Nat} {j : Json} (h : Plain depth j) :
    Printable (write j) := by
  induction h with
  | null => exact .of_all (by decide)
  | bool b => cases b <;> exact .of_all (by decide)
  | whole low high => exact printable_ofInteger _
  | str s => exact printable_quote s
  | @arr depth items plain ih =>
    cases items with
    | nil => exact .of_all (by decide)
    | cons j items =>
      rw [write]
      exact (Printable.cons (by decide) (ih j (List.mem_cons_self ..))).append
        (printable_writeItems fun k hk => ih k (List.mem_cons_of_mem j hk))
  | @obj depth members plain ih =>
    cases members with
    | nil => exact .of_all (by decide)
    | cons m members =>
      rw [write]
      exact ((Printable.cons (by decide) (printable_quote m.1)).append
        (.cons (by decide) (ih m (List.mem_cons_self ..)))).append
        (printable_writeMembers fun k hk => ih k (List.mem_cons_of_mem m hk))

/-! ## Reading from the left -/

theorem skipSpace_cons {c : Char} (h : 0x20 < c.toNat) (r : List Char) :
    skipSpace (c :: r) = c :: r := by
  rw [skipSpace.eq_def]
  split
  all_goals first
    | rfl
    | next heq =>
      obtain rfl := (List.cons.inj heq).1
      exact absurd h (by decide)

theorem scalar?_of_number {c : Char} (h : c = '-' ∨ c.isDigit) (r : List Char) :
    scalar? (c :: r) = number? (c :: r) := by
  rw [scalar?.eq_def]
  split
  all_goals first
    | rfl
    | next heq =>
      obtain rfl := (List.cons.inj heq).1
      exact absurd h (by decide)

theorem value_of_scalar {c : Char} (harr : c ≠ '[') (hobj : c ≠ '\x7b') (steps depth : Nat)
    (r : List Char) : value (steps + 1) depth (c :: r) = scalar? (c :: r) := by
  rw [value.eq_def]
  dsimp only
  split
  · next heq => exact absurd (List.cons.inj heq).1 harr
  · next heq => exact absurd (List.cons.inj heq).1 hobj
  · rfl

theorem value_of_array {s : List Char} (h : ∀ t, skipSpace s ≠ ']' :: t) (steps depth : Nat) :
    value (steps + 1) (depth + 1) ('[' :: s) =
      (itemsTail steps depth [] (skipSpace s)).map fun p => (.arr p.1, p.2) := by
  rw [value]
  split
  · next t heq => exact absurd heq (h t)
  · rfl

theorem value_of_object {s : List Char} (h : ∀ t, skipSpace s ≠ '\x7d' :: t)
    (steps depth : Nat) :
    value (steps + 1) (depth + 1) ('\x7b' :: s) =
      (membersTail steps depth (some []) (skipSpace s)).map
        fun p => (p.1.elim .unreadable .obj, p.2) := by
  rw [value]
  split
  · next t heq => exact absurd heq (h t)
  · rfl

theorem exists_ofInteger_eq_cons (n : Int) :
    ∃ c s, ofInteger n = c :: s ∧ (c = '-' ∨ c.isDigit) := by
  rw [ofInteger]
  split
  · exact ⟨'-', _, rfl, .inl rfl⟩
  · obtain ⟨c, ds, hds, hc⟩ := exists_digitsOf_eq_cons_digit n.natAbs
    exact ⟨c, ds, hds, .inr hc⟩

/-- No number starts like something else. -/
theorem ne_brackets_of_number {c : Char} (h : c = '-' ∨ c.isDigit) :
    0x20 < c.toNat ∧ c ≠ ']' ∧ c ≠ '[' ∧ c ≠ '\x7b' := by
  refine ⟨?_, ?_, ?_, ?_⟩
  · rcases h with rfl | hdigit
    · decide
    · exact Nat.lt_of_lt_of_le (by decide) (Char.isDigit_iff_toNat.mp hdigit).1
  all_goals
    rintro rfl
    exact absurd h (by decide)

theorem skipSpace_quote (s : String) (r : List Char) :
    skipSpace (quote s ++ r) = quote s ++ r :=
  skipSpace_cons (by decide) _

theorem name?_quote (name : String) (r : List Char) :
    name? (quote name ++ ':' :: r) = some (some name, skipSpace r) := by
  have hstring := string?_escape name (':' :: r)
  have hcolon : skipSpace (':' :: r) = ':' :: r := skipSpace_cons (by decide) r
  rw [quote, List.cons_append, List.cons_append, List.append_assoc, name?]
  simp only [List.cons_append, List.nil_append, hstring, hcolon]

/-- A value is read as another one, whatever follows it, in some more steps than it is long. It
starts with a character that is no white space and closes no bracket. -/
structure ReadsAs (depth : Nat) (j k : Json) : Prop where
  opens : ∃ c s, write j = c :: s ∧ 0x20 < c.toNat ∧ c ≠ ']'
  reads : ∀ (steps : Nat) (r : List Char), (write j).length < steps → EndsNumber r →
    value steps depth (write j ++ r) = some (k, r)

/-- Members are read as others of the same names. -/
def MembersReadAs (depth : Nat) : List (String × Json) → List (String × Json) → Prop :=
  List.Forall₂ fun m n => m.1 = n.1 ∧ ReadsAs depth m.2 n.2

namespace ReadsAs

variable {depth : Nat} {j k : Json}

theorem skipSpace_write (h : ReadsAs depth j k) (r : List Char) :
    skipSpace (write j ++ r) = write j ++ r := by
  obtain ⟨c, s, hcons, hc, -⟩ := h.opens
  rw [hcons, List.cons_append, skipSpace_cons hc]

/-- A value without brackets is read at once. -/
theorem of_scalar {c : Char} {s : List Char} (hcons : write j = c :: s)
    (hc : 0x20 < c.toNat ∧ c ≠ ']' ∧ c ≠ '[' ∧ c ≠ '\x7b')
    (h : ∀ r, EndsNumber r → scalar? (write j ++ r) = some (k, r)) : ReadsAs depth j k where
  opens := ⟨c, s, hcons, hc.1, hc.2.1⟩
  reads := by
    intro steps r hsteps hr
    obtain ⟨steps, rfl⟩ := Nat.exists_eq_add_of_le' (Nat.zero_lt_of_lt hsteps)
    rw [← h r hr, hcons, List.cons_append, value_of_scalar hc.2.2.1 hc.2.2.2]

end ReadsAs

theorem endsNumber_writeItems (items : List Json) (r : List Char) :
    EndsNumber (writeItems items ++ r) := by
  cases items <;> exact endsNumber_cons _ (by decide)

theorem endsNumber_writeMembers (members : List (String × Json)) (r : List Char) :
    EndsNumber (writeMembers members ++ r) := by
  cases members <;> exact endsNumber_cons _ (by decide)

/-- The items of an array are read from one of them on. -/
theorem itemsTail_write {depth : Nat} {items items' : List Json}
    (h : List.Forall₂ (ReadsAs depth) items items') :
    ∀ {j k : Json}, ReadsAs depth j k → ∀ (steps : Nat) (read : List Json) (r : List Char),
      (write j).length + (writeItems items).length < steps →
      itemsTail steps depth read (write j ++ (writeItems items ++ r)) =
        some (read.reverse ++ k :: items', r) := by
  induction h with
  | nil =>
    intro j k hj steps read r hsteps
    obtain ⟨steps, rfl⟩ := Nat.exists_eq_add_of_le' (Nat.zero_lt_of_lt hsteps)
    have hvalue := hj.reads steps (writeItems [] ++ r) (by simp [writeItems] at hsteps; omega)
      (endsNumber_writeItems [] r)
    rw [itemsTail, hvalue]
    simp [writeItems, skipSpace]
  | @cons next _ items _ hnext _ ih =>
    intro j k hj steps read r hsteps
    obtain ⟨steps, rfl⟩ := Nat.exists_eq_add_of_le' (Nat.zero_lt_of_lt hsteps)
    simp only [writeItems, List.length_cons, List.length_append, List.cons_append] at hsteps
    -- The step for this item is paid for by the comma behind it.
    have hvalue := hj.reads steps (writeItems (next :: items) ++ r) (by omega)
      (endsNumber_writeItems (next :: items) r)
    have hrest := ih hnext steps (k :: read) r (by omega)
    have hspace := hnext.skipSpace_write (writeItems items ++ r)
    rw [itemsTail, hvalue]
    simp only [writeItems, List.cons_append, List.append_assoc, Option.bind_eq_bind,
      Option.bind_some, skipSpace_cons (show 0x20 < ','.toNat by decide), hspace]
    rw [hrest, List.reverse_cons, List.append_assoc]
    rfl

/-- The members of an object are read from one of them on. -/
theorem membersTail_write {depth : Nat} {members members' : List (String × Json)}
    (h : MembersReadAs depth members members') :
    ∀ {m : String × Json} {k : Json}, ReadsAs depth m.2 k →
      ∀ (steps : Nat) (read : List (String × Json)) (r : List Char),
      (write m.2).length + (writeMembers members).length < steps →
      membersTail steps depth (some read)
          (quote m.1 ++ ':' :: (write m.2 ++ (writeMembers members ++ r))) =
        some (some (read.reverse ++ (m.1, k) :: members'), r) := by
  induction h with
  | nil =>
    intro m k hm steps read r hsteps
    obtain ⟨steps, rfl⟩ := Nat.exists_eq_add_of_le' (Nat.zero_lt_of_lt hsteps)
    have hvalue := hm.reads steps (writeMembers [] ++ r)
      (by simp [writeMembers] at hsteps; omega) (endsNumber_writeMembers [] r)
    rw [membersTail, name?_quote, hm.skipSpace_write]
    simp only [Option.bind_eq_bind, Option.bind_some, hvalue]
    simp [writeMembers, skipSpace]
  | @cons next next' members _ hnext _ ih =>
    intro m k hm steps read r hsteps
    obtain ⟨steps, rfl⟩ := Nat.exists_eq_add_of_le' (Nat.zero_lt_of_lt hsteps)
    simp only [writeMembers, List.length_cons, List.length_append, List.cons_append] at hsteps
    have hvalue := hm.reads steps (writeMembers (next :: members) ++ r) (by omega)
      (endsNumber_writeMembers (next :: members) r)
    have hrest := ih hnext.2 steps ((m.1, k) :: read) r (by omega)
    rw [membersTail, name?_quote, hm.skipSpace_write]
    simp only [Option.bind_eq_bind, Option.bind_some, hvalue]
    simp only [writeMembers, List.cons_append, List.append_assoc,
      skipSpace_cons (show 0x20 < ','.toNat by decide), skipSpace_quote, Option.map_some]
    rw [hrest, hnext.1, List.reverse_cons, List.append_assoc]
    rfl

namespace ReadsAs

variable {depth : Nat}

theorem whole {n : Int} (low : Int64.minValue.toInt ≤ n) (high : n < UInt64.size) :
    ReadsAs depth (.num (.whole n)) (.num (.whole n)) := by
  obtain ⟨c, s, hcons, hc⟩ := exists_ofInteger_eq_cons n
  refine of_scalar hcons (ne_brackets_of_number hc) fun r hr => ?_
  rw [write, writeNumber, hcons, List.cons_append, scalar?_of_number hc, ← List.cons_append,
    ← hcons, number?_ofInteger low high hr]

theorem str (s : String) : ReadsAs depth (.str s) (.str s) := by
  refine of_scalar rfl (by decide) fun r _ => ?_
  rw [write, quote, List.cons_append, List.cons_append, List.append_assoc, scalar?,
    List.cons_append, List.nil_append, string?_escape]
  rfl

theorem arr {items items' : List Json} (h : List.Forall₂ (ReadsAs depth) items items') :
    ReadsAs (depth + 1) (.arr items) (.arr items') where
  opens := by
    cases items with
    | nil => exact ⟨_, _, rfl, by decide⟩
    | cons j items => exact ⟨'[', _, by rw [write, List.cons_append], by decide⟩
  reads := by
    intro steps r hsteps _
    obtain ⟨steps, rfl⟩ := Nat.exists_eq_add_of_le' (Nat.zero_lt_of_lt hsteps)
    cases h with
    | nil => simp [write, value, skipSpace]
    | @cons j k items items' hj hitems =>
      simp only [write, List.length_cons, List.length_append, List.cons_append] at hsteps
      have htail := itemsTail_write hitems hj steps [] r (by omega)
      -- The first item is not taken for the end of an empty array.
      have hspace := hj.skipSpace_write (writeItems items ++ r)
      have hopen : ∀ t, skipSpace (write j ++ (writeItems items ++ r)) ≠ ']' :: t := by
        obtain ⟨c, s, hcons, -, hc⟩ := hj.opens
        intro t heq
        rw [hspace, hcons] at heq
        exact hc (List.cons.inj heq).1
      rw [write, List.cons_append, List.cons_append, List.append_assoc, value_of_array hopen,
        hspace, htail]
      rfl

theorem obj {members members' : List (String × Json)} (h : MembersReadAs depth members members') :
    ReadsAs (depth + 1) (.obj members) (.obj members') where
  opens := by
    cases members with
    | nil => exact ⟨_, _, rfl, by decide⟩
    | cons m members =>
      exact ⟨'\x7b', _, by rw [write, List.cons_append, List.cons_append], by decide⟩
  reads := by
    intro steps r hsteps _
    obtain ⟨steps, rfl⟩ := Nat.exists_eq_add_of_le' (Nat.zero_lt_of_lt hsteps)
    cases h with
    | nil => simp [write, value, skipSpace]
    | @cons m n members members' hm hmembers =>
      simp only [write, List.length_cons, List.length_append, List.cons_append] at hsteps
      have htail := membersTail_write hmembers hm.2 steps [] r (by omega)
      have hopen : ∀ s t, skipSpace (quote m.1 ++ s) ≠ '\x7d' :: t := by
        intro s t heq
        rw [skipSpace_quote] at heq
        exact absurd (List.cons.inj heq).1 (by decide)
      rw [write]
      simp only [List.cons_append, List.append_assoc]
      rw [value_of_object (hopen _), skipSpace_quote, htail, hm.1]
      rfl

/-- A value that is not too deep is read from the text of it alone. -/
theorem parseChars? {j k : Json} (h : ReadsAs depthLimit j k) :
    parseChars? (write j) = some k := by
  have hspace := h.skipSpace_write []
  have hvalue := h.reads _ [] (Nat.lt_succ_self (write j).length) endsNumber_nil
  rw [List.append_nil] at hspace hvalue
  rw [Json.parseChars?, hspace, hvalue]
  rfl

end ReadsAs

/-- Plain values are read as themselves. -/
theorem Plain.readsAs {depth : Nat} {j : Json} (h : Plain depth j) : ReadsAs depth j j := by
  induction h with
  | null => exact .of_scalar rfl (by decide) fun _ _ => rfl
  | bool b =>
    cases b
    · exact .of_scalar rfl (by decide) fun _ _ => rfl
    · exact .of_scalar rfl (by decide) fun _ _ => rfl
  | whole low high => exact .whole low high
  | str s => exact .str s
  | arr plain ih => exact .arr (List.forall₂_same.mpr ih)
  | obj plain ih => exact .obj (List.forall₂_same.mpr fun m hm => ⟨rfl, ih m hm⟩)

/-- A value without fractions that is not too deep survives being written and read. -/
theorem parseChars?_write {j : Json} (h : Plain depthLimit j) :
    parseChars? (write j) = some j :=
  h.readsAs.parseChars?

theorem parse?_compact {j : Json} (h : Plain depthLimit j) : parse? j.compact = some j := by
  rw [parse?, compact, String.toList_ofList]
  exact parseChars?_write h

/-! ## The ends of a record -/

theorem exists_writeMembers_eq (members : List (String × Json)) :
    ∃ t, writeMembers members = t ++ ['\x7d'] := by
  induction members with
  | nil => exact ⟨[], rfl⟩
  | cons m members ih =>
    obtain ⟨t, ht⟩ := ih
    refine ⟨',' :: quote m.1 ++ ':' :: write m.2 ++ t, ?_⟩
    rw [writeMembers, ht, List.append_assoc _ t]

/-- An object is written between braces. -/
theorem exists_write_obj_eq (members : List (String × Json)) :
    ∃ t, write (.obj members) = '\x7b' :: t ++ ['\x7d'] := by
  cases members with
  | nil => exact ⟨[], by rw [write]; rfl⟩
  | cons m members =>
    obtain ⟨t, ht⟩ := exists_writeMembers_eq members
    refine ⟨quote m.1 ++ ':' :: write m.2 ++ t, ?_⟩
    rw [write, ht]
    simp only [List.cons_append, List.append_assoc]

end PaintBench.Json
