import PaintBench.Proofs.Decimal.Shortest
import PaintBench.Proofs.Json.RoundTrip

/-!
# Numbers with fractions

A `Literal` is a number taken apart as it is written: a sign, the digits before and after the
decimal point, an exponent. The reader finds the same parts, whatever follows (`number?_text`).
Every finite `Float` is written as a literal (`exists_literal`), so it is read as one and the same
value wherever it stands (`ReadsAs.float`).
-/

namespace PaintBench.Json

open Decimal

/-- The parts of a number. -/
structure Literal where
  negative : Bool
  whole : List Char
  fraction : List Char
  exponent : Option Int
  isDigit_whole : ∀ c ∈ whole, c.isDigit
  isDigit_fraction : ∀ c ∈ fraction, c.isDigit
  noLeadingZero : NoLeadingZero whole

namespace Literal

/-- The digits after the decimal point, if there are any. -/
def fractionText : List Char → List Char
  | [] => []
  | c :: ds => '.' :: c :: ds

/-- The exponent, if there is one. -/
def scaleText : Option Int → List Char
  | none => []
  | some e => 'e' :: exponentText e

/-- The text without the sign. -/
def magnitudeText (l : Literal) : List Char :=
  l.whole ++ (fractionText l.fraction ++ scaleText l.exponent)

/-- The text of the parts. -/
def text (l : Literal) : List Char :=
  if l.negative then '-' :: l.magnitudeText else l.magnitudeText

/-- What the reader makes of the parts. -/
def value (l : Literal) : Json :=
  ofLiteral l.negative l.whole l.fraction l.exponent

/-! ## Reading the parts -/

theorem valueOf_digitsOf (n : Nat) : valueOf (digitsOf n) = n := by
  rw [valueOf_eq fun _ => isDigit_of_mem_digitsOf, digitsOf, Nat.ofDigitChars_ten_toDigits]

theorem digits_digitsOf (n : Nat) {rest : List Char} (hrest : EndsNumber rest) :
    digits (digitsOf n ++ rest) = (digitsOf n, rest) :=
  digits_append (fun _ => isDigit_of_mem_digitsOf) hrest.endsDigits

theorem digitsOf_isEmpty (n : Nat) : (digitsOf n).isEmpty = false := by
  obtain ⟨c, ds, hds, -⟩ := exists_digitsOf_eq_cons_digit n
  rw [hds]
  rfl

theorem exponentPart?_scaleText (exponent : Option Int) {rest : List Char}
    (hrest : EndsNumber rest) :
    exponentPart? (scaleText exponent ++ rest) = some (exponent, rest) := by
  cases exponent with
  | none => exact exponentPart?_of_endsNumber hrest
  | some e =>
    rw [scaleText, exponentText]
    split
    · next hneg =>
      have habs : -(e.natAbs : Int) = e := by omega
      simp only [List.cons_append, exponentPart?, digits_digitsOf e.natAbs hrest, digitsOf_isEmpty,
        valueOf_digitsOf, habs, Bool.false_eq_true, if_false, if_true]
    · next hpos =>
      have habs : (e.natAbs : Int) = e := by omega
      simp only [List.cons_append, exponentPart?, digits_digitsOf e.natAbs hrest, digitsOf_isEmpty,
        valueOf_digitsOf, habs, Bool.false_eq_true, if_false]

theorem endsDigits_scaleText (exponent : Option Int) {rest : List Char} (hrest : EndsNumber rest) :
    EndsDigits (scaleText exponent ++ rest) := by
  cases exponent with
  | none => exact hrest.endsDigits
  | some e =>
    rintro c ⟨⟩
    rfl

theorem fractionPart?_fractionText {fraction : List Char} (hdigits : ∀ c ∈ fraction, c.isDigit)
    (exponent : Option Int) {rest : List Char} (hrest : EndsNumber rest) :
    fractionPart? (fractionText fraction ++ (scaleText exponent ++ rest)) =
      some (fraction, scaleText exponent ++ rest) := by
  have hends := endsDigits_scaleText exponent hrest
  cases fraction with
  | nil =>
    cases exponent with
    | none => exact fractionPart?_of_endsNumber hrest
    | some e => rfl
  | cons c ds =>
    rw [fractionText, List.cons_append, fractionPart?, digits_append hdigits hends]
    rfl

theorem endsDigits_fractionText (fraction : List Char) (exponent : Option Int) {rest : List Char}
    (hrest : EndsNumber rest) :
    EndsDigits (fractionText fraction ++ (scaleText exponent ++ rest)) := by
  cases fraction with
  | nil => exact endsDigits_scaleText exponent hrest
  | cons c ds =>
    rintro c ⟨⟩
    rfl

variable (l : Literal)

theorem exists_magnitudeText_eq_cons :
    ∃ c s, l.magnitudeText = c :: s ∧ c.isDigit := by
  rcases l.noLeadingZero with hzero | ⟨c, ds, hds, -⟩
  · exact ⟨'0', _, by rw [magnitudeText, hzero]; rfl, rfl⟩
  · refine ⟨c, _, by rw [magnitudeText, hds]; rfl, l.isDigit_whole c ?_⟩
    rw [hds]
    exact List.mem_cons_self

/-- A number is read from its text, whatever follows it. -/
theorem number?_text {rest : List Char} (hrest : EndsNumber rest) :
    number? (l.text ++ rest) = some (l.value, rest) := by
  have hinteger : integerPart? (l.magnitudeText ++ rest) =
      some (l.whole, fractionText l.fraction ++ (scaleText l.exponent ++ rest)) := by
    rw [magnitudeText, List.append_assoc, List.append_assoc]
    exact integerPart?_append l.isDigit_whole l.noLeadingZero
      (endsDigits_fractionText l.fraction l.exponent hrest)
  have hfraction := fractionPart?_fractionText l.isDigit_fraction l.exponent hrest
  have hexponent := exponentPart?_scaleText l.exponent hrest
  rw [value]
  unfold number? text
  cases l.negative with
  | true =>
    simp only [if_true, List.cons_append, hinteger, hfraction, hexponent, Option.bind_eq_bind,
      Option.bind_some]
  | false =>
    simp only [Bool.false_eq_true, if_false]
    split
    · next s heq =>
      obtain ⟨c, s', hcons, hc⟩ := l.exists_magnitudeText_eq_cons
      rw [hcons] at heq
      obtain rfl : c = '-' := (List.cons.inj heq).1
      exact absurd hc (by decide)
    · simp only [hinteger, hfraction, hexponent, Option.bind_eq_bind, Option.bind_some]

/-! ## The parts of a `Float` -/

/-- The digits of both parts as one number. -/
def significand : Nat :=
  Nat.ofDigitChars 10 (l.whole ++ l.fraction) 0

/-- The power of ten that the last digit stands for. -/
def scale : Int :=
  l.exponent.getD 0 - l.fraction.length

/-- How many digits a number has before its decimal point. -/
def pointOf (d : Digits) : Int :=
  (digitsOf d.digits).length + d.exponent

/-- A number is written with its own digits, and zeros up to the place after the decimal point
unless it is too great. -/
def StandsFor (d : Digits) : Prop :=
  ∃ zeros : Nat, l.significand = d.digits * powerOfTen zeros ∧ l.scale = d.exponent - zeros ∧
    (zeros = 0 ∧ (d.exponent < 0 ∨ 16 < pointOf d) ∨ zeros = d.exponent + 1)

/-- A number with a fraction or an exponent is no whole number to the reader. -/
def IsBroken : Prop :=
  l.fraction ≠ [] ∨ l.exponent.isSome

theorem IsBroken.isWhole_eq_false {l : Literal} (h : l.IsBroken) :
    (l.fraction.isEmpty && l.exponent.isNone) = false := by
  rcases h with h | h
  · rw [List.isEmpty_eq_false_iff.mpr h, Bool.false_and]
  · rw [Option.isNone_eq_false_iff.mpr h, Bool.and_false]

theorem IsBroken.exists_value_eq {l : Literal} (h : l.IsBroken) : ∃ x, l.value = ofFinite x := by
  rw [value, ofLiteral]
  simp only [h.isWhole_eq_false, Bool.false_and, Bool.false_eq_true, if_false]
  exact ⟨_, rfl⟩

/-- A number is spelled as some magnitude. -/
def Spells (magnitude : List Char) (negative : Bool) (d : Digits) : Prop :=
  ∃ l : Literal, l.negative = negative ∧ l.magnitudeText = magnitude ∧ l.StandsFor d ∧ l.IsBroken

theorem fractionText_of_ne_nil {ds : List Char} (h : ds ≠ []) : fractionText ds = '.' :: ds := by
  cases ds with
  | nil => exact absurd rfl h
  | cons c ds => rfl

theorem digitsOf_ne_nil (n : Nat) : digitsOf n ≠ [] := by
  obtain ⟨c, ds, hds, -⟩ := exists_digitsOf_eq_cons_digit n
  rw [hds]
  exact List.cons_ne_nil c ds

theorem isDigit_replicate {n : Nat} : ∀ c ∈ List.replicate n '0', c.isDigit := by
  intro c hc
  rw [List.eq_of_mem_replicate hc]
  rfl

theorem isDigit_zero : ∀ c ∈ ['0'], c.isDigit :=
  @isDigit_replicate 1

theorem isDigit_append {ds es : List Char} (hds : ∀ c ∈ ds, c.isDigit) (hes : ∀ c ∈ es, c.isDigit) :
    ∀ c ∈ ds ++ es, c.isDigit := by
  intro c hc
  rcases List.mem_append.mp hc with h | h
  · exact hds c h
  · exact hes c h

theorem ofDigitChars_digitsOf (n : Nat) : Nat.ofDigitChars 10 (digitsOf n) 0 = n :=
  Nat.ofDigitChars_ten_toDigits

theorem length_digitsOf_pos (n : Nat) : 0 < (digitsOf n).length :=
  Nat.length_toDigits_pos

theorem noLeadingZero_append {ds : List Char} (hne : ds ≠ []) (es : List Char)
    (h : ∀ c ∈ ds.head?, c ≠ '0') : NoLeadingZero (ds ++ es) := by
  cases ds with
  | nil => exact absurd rfl hne
  | cons c ds => exact .inr ⟨c, ds ++ es, rfl, h c rfl⟩

variable {d : Digits} (negative : Bool)

/-- All digits stand behind the decimal point. -/
theorem spells_behind (hpoint : pointOf d ≤ 0) :
    Spells ('0' :: '.' :: List.replicate (pointOf d).natAbs '0' ++ digitsOf d.digits) negative
      d := by
  have hne : List.replicate (pointOf d).natAbs '0' ++ digitsOf d.digits ≠ [] := by
    simp [digitsOf_ne_nil]
  have hlength := length_digitsOf_pos d.digits
  refine ⟨⟨negative, ['0'], List.replicate (pointOf d).natAbs '0' ++ digitsOf d.digits, none,
    isDigit_zero, isDigit_append isDigit_replicate fun _ => isDigit_of_mem_digitsOf, .inl rfl⟩,
    rfl, ?_, ⟨0, ?_, ?_, .inl ⟨rfl, .inl ?_⟩⟩, .inl hne⟩
  · rw [magnitudeText, fractionText_of_ne_nil hne, scaleText, List.append_nil]
    rfl
  · simp [significand, Nat.ofDigitChars_append, Nat.ofDigitChars_cons, ofDigitChars_digitsOf,
      Nat.ofDigitChars_replicate_zero, powerOfTen]
  · simp only [scale, List.length_append, List.length_replicate, Option.getD_none]
    rw [pointOf] at hpoint ⊢
    omega
  · rw [pointOf] at hpoint
    omega

variable (hpos : 0 < d.digits)

include hpos

/-- All digits stand before the decimal point. -/
theorem spells_before (hpoint : (digitsOf d.digits).length ≤ pointOf d) :
    Spells (digitsOf d.digits ++
      List.replicate ((pointOf d).natAbs - (digitsOf d.digits).length) '0' ++ ['.', '0'])
      negative d := by
  have hzero := noLeadingZero_append (digitsOf_ne_nil d.digits)
    (List.replicate ((pointOf d).natAbs - (digitsOf d.digits).length) '0') (by
      obtain ⟨c, ds, hds, hc⟩ := exists_digitsOf_eq_cons (Nat.pos_iff_ne_zero.mp hpos)
      rw [hds]
      rintro c ⟨⟩
      exact hc)
  rw [pointOf] at hpoint
  have hzeros : (pointOf d).natAbs - (digitsOf d.digits).length = d.exponent.toNat := by
    rw [pointOf]
    omega
  rw [hzeros] at hzero ⊢
  refine ⟨⟨negative, digitsOf d.digits ++ List.replicate d.exponent.toNat '0', ['0'], none,
    isDigit_append (fun _ => isDigit_of_mem_digitsOf) isDigit_replicate, isDigit_zero, hzero⟩,
    rfl, rfl, ⟨d.exponent.toNat + 1, ?_, ?_, .inr ?_⟩, .inl (List.cons_ne_nil _ _)⟩
  · simp [significand, Nat.ofDigitChars_append, Nat.ofDigitChars_cons, ofDigitChars_digitsOf,
      Nat.ofDigitChars_replicate_zero, powerOfTen, Nat.pow_succ]
    ac_rfl
  · simp [scale]
    omega
  · omega

/-- The decimal point stands between two digits. -/
theorem spells_between (hpoint : 0 < pointOf d)
    (hlength : pointOf d < (digitsOf d.digits).length) :
    Spells ((digitsOf d.digits).take (pointOf d).natAbs ++
      '.' :: (digitsOf d.digits).drop (pointOf d).natAbs) negative d := by
  obtain ⟨p, hp⟩ : ∃ p, (pointOf d).natAbs = p + 1 := ⟨(pointOf d).natAbs - 1, by omega⟩
  rw [hp]
  have hne : (digitsOf d.digits).drop (p + 1) ≠ [] := by
    rw [ne_eq, List.drop_eq_nil_iff]
    omega
  have hzero : NoLeadingZero ((digitsOf d.digits).take (p + 1)) := by
    obtain ⟨c, ds, hds, hc⟩ := exists_digitsOf_eq_cons (Nat.pos_iff_ne_zero.mp hpos)
    rw [hds]
    exact .inr ⟨c, ds.take p, rfl, hc⟩
  refine ⟨⟨negative, (digitsOf d.digits).take (p + 1), (digitsOf d.digits).drop (p + 1), none,
    fun _ h => isDigit_of_mem_digitsOf (List.mem_of_mem_take h),
    fun _ h => isDigit_of_mem_digitsOf (List.mem_of_mem_drop h), hzero⟩,
    rfl, ?_, ⟨0, ?_, ?_, .inl ⟨rfl, .inl ?_⟩⟩, .inl hne⟩
  · rw [magnitudeText, fractionText_of_ne_nil hne, scaleText, List.append_nil]
  · rw [significand, List.take_append_drop, ofDigitChars_digitsOf]
    exact (Nat.mul_one _).symm
  · rw [pointOf] at hpoint hlength hp
    simp [scale]
    omega
  · rw [pointOf] at hlength
    omega

/-- A great or small number has its decimal point after the first digit. -/
theorem spells_scientific (hpoint : ¬(-5 < pointOf d ∧ pointOf d ≤ 16)) :
    Spells (exponentialText (digitsOf d.digits) (exponentText (pointOf d - 1))) negative d := by
  obtain ⟨c, ds, hds, hc⟩ := exists_digitsOf_eq_cons (Nat.pos_iff_ne_zero.mp hpos)
  have hdigit : ∀ b ∈ c :: ds, b.isDigit := by
    rw [← hds]
    exact fun _ => isDigit_of_mem_digitsOf
  have hlength : (digitsOf d.digits).length = ds.length + 1 := by
    rw [hds, List.length_cons]
  refine ⟨⟨negative, [c], ds, some (pointOf d - 1),
    fun b hb => hdigit b (List.mem_cons.mpr (.inl (List.mem_singleton.mp hb))),
    fun b hb => hdigit b (List.mem_cons_of_mem c hb), .inr ⟨c, [], rfl, hc⟩⟩,
    rfl, ?_, ⟨0, ?_, ?_, .inl ⟨rfl, ?_⟩⟩, .inr rfl⟩
  · rw [hds, magnitudeText]
    cases ds <;> rfl
  · rw [significand, List.singleton_append, ← hds, ofDigitChars_digitsOf]
    exact (Nat.mul_one _).symm
  · simp [scale, pointOf, hlength]
    omega
  · rw [pointOf] at hpoint ⊢
    omega

/-- The magnitude of a number in result files. -/
def dataText (d : Digits) : List Char :=
  if Layout.data.positional (pointOf d) then
    positionalText true (digitsOf d.digits) (pointOf d)
  else exponentialText (digitsOf d.digits) (exponentText (pointOf d - 1))

theorem spells_dataText : Spells (dataText d) negative d := by
  have hpositional : Layout.data.positional (pointOf d) ↔ -5 < pointOf d ∧ pointOf d ≤ 16 := by
    simp only [Layout.data, Bool.and_eq_true, decide_eq_true_eq]
  rw [dataText]
  split
  · rw [positionalText]
    split
    · next hpoint => exact spells_behind negative hpoint
    · next hpoint =>
      split
      · next hlength => exact spells_before negative hpos (by omega)
      · next hlength => exact spells_between negative hpos (by omega) (by omega)
  · next hpoint => exact spells_scientific negative hpos fun h => hpoint (hpositional.mpr h)

end Literal

open Literal

theorem write_data {x : Float} {negative : Bool} {m s : Nat}
    (hunpack : unpack x = .finite negative m s) (hm : 0 < m) :
    Layout.data.write x = if negative then '-' :: dataText (shortest .even m s)
      else dataText (shortest .even m s) := by
  obtain ⟨m, rfl⟩ := Nat.exists_eq_add_of_lt hm
  rw [Layout.write, hunpack]
  rfl

/-- Every finite number but zero is written with the fewest digits that read back. -/
theorem exists_literal {x : Float} {negative : Bool} {m s : Nat}
    (hunpack : unpack x = .finite negative m s) (hm : 0 < m) :
    ∃ l : Literal, l.text = Layout.data.write x ∧ l.negative = negative ∧
      l.StandsFor (shortest .even m s) ∧ l.IsBroken := by
  obtain ⟨l, hnegative, hmagnitude, hstands, hbroken⟩ :=
    spells_dataText negative (shortest_pos s .even hm)
  refine ⟨l, ?_, hnegative, hstands, hbroken⟩
  rw [text, hnegative, hmagnitude, write_data hunpack hm]

/-- A zero is written with a fraction. -/
theorem exists_literal_zero {x : Float} {negative : Bool} {s : Nat}
    (hunpack : unpack x = .finite negative 0 s) :
    ∃ l : Literal, l.text = Layout.data.write x ∧ l.negative = negative ∧ l.significand = 0 ∧
      l.scale = -1 ∧ l.IsBroken := by
  refine ⟨⟨negative, ['0'], ['0'], none, isDigit_zero, isDigit_zero, .inl rfl⟩, ?_, rfl, rfl, rfl,
    .inl (List.cons_ne_nil _ _)⟩
  rw [Layout.write, hunpack]
  rfl

theorem exists_literal_of_isFinite {x : Float} (h : isFinite x) :
    ∃ l : Literal, l.text = Layout.data.write x ∧ l.IsBroken := by
  rw [isFinite] at h
  split at h
  · next negative m s hunpack =>
    rcases Nat.eq_zero_or_pos m with rfl | hm
    · obtain ⟨l, hl, -, -, -, hbroken⟩ := exists_literal_zero hunpack
      exact ⟨l, hl, hbroken⟩
    · obtain ⟨l, hl, -, -, hbroken⟩ := exists_literal hunpack hm
      exact ⟨l, hl, hbroken⟩
  · cases h

/-! ## Floats in a value -/

/-- What is read of a number that was written. -/
def readBack (x : Float) : Json :=
  (number? (Layout.data.write x)).elim .unreadable (·.1)

theorem readBack_eq {x : Float} {l : Literal} (h : l.text = Layout.data.write x) :
    readBack x = l.value := by
  have hnumber := l.number?_text endsNumber_nil
  rw [List.append_nil, h] at hnumber
  rw [readBack, hnumber]
  rfl

/-- A number is read in the same way wherever it stands. -/
theorem ReadsAs.float {depth : Nat} {x : Float} (h : isFinite x) :
    ReadsAs depth (.num (.float x)) (readBack x) := by
  obtain ⟨l, hl, -⟩ := exists_literal_of_isFinite h
  obtain ⟨c, s, hcons, hc⟩ : ∃ c s, l.text = c :: s ∧ (c = '-' ∨ c.isDigit) := by
    rw [text]
    split
    · exact ⟨'-', _, rfl, .inl rfl⟩
    · obtain ⟨c, s, hcons, hc⟩ := l.exists_magnitudeText_eq_cons
      exact ⟨c, s, hcons, .inr hc⟩
  refine of_scalar (hl.symm.trans hcons) (ne_brackets_of_number hc) fun r hr => ?_
  rw [write, writeNumber, ← hl, readBack_eq hl, ← l.number?_text hr, hcons, List.cons_append,
    scalar?_of_number hc]

theorem readBack_ne_null {x : Float} (h : isFinite x) : readBack x ≠ .null := by
  obtain ⟨l, hl, hbroken⟩ := exists_literal_of_isFinite h
  obtain ⟨y, hy⟩ := hbroken.exists_value_eq
  rw [readBack_eq hl, hy, ofFinite]
  split <;> nofun

/-- What is read of a value that was written, unless it has numbers inside it. -/
def reread : Json → Json
  | .num (.float x) => readBack x
  | j => j

theorem reread_of_plain {depth : Nat} {j : Json} (h : Plain depth j) : j.reread = j := by
  cases h <;> rfl

end PaintBench.Json
