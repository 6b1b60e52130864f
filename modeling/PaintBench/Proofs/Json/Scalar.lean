import Mathlib.Data.List.TakeDrop
import PaintBench.Json.Parser
import PaintBench.Json.Printer

/-!
# Reading numbers and strings that were written

The reader takes back what the writer wrote, whatever follows it: whole numbers of 64 bits
(`number?_ofInteger`) and all strings (`string?_escape`). No string is written with a
control character in it, so none has a raw line break (`printable_quote`).
-/

namespace PaintBench

/-- The value of digits. -/
theorem Decimal.valueOf_eq {digits : List Char} (h : ∀ c ∈ digits, c.isDigit) :
    Decimal.valueOf digits = Nat.ofDigitChars 10 digits 0 := by
  suffices hfrom : ∀ n, digits.foldl (fun n c => 10 * n +
      (if c.isDigit then c.toNat - '0'.toNat else 0)) n = Nat.ofDigitChars 10 digits n from hfrom 0
  induction digits with
  | nil => exact fun n => rfl
  | cons c digits ih =>
    intro n
    rw [List.foldl_cons, if_pos (h c List.mem_cons_self), Nat.ofDigitChars_cons]
    exact ih (fun d hd => h d (List.mem_cons_of_mem _ hd)) _

namespace Json

open Decimal

/-! ## Whole numbers -/

theorem isDigit_of_mem_digitsOf {n : Nat} {c : Char} (h : c ∈ digitsOf n) : c.isDigit :=
  Nat.isDigit_of_mem_toDigits (by decide) (by decide) h

/-- Numbers that are written alike are equal. -/
theorem digitsOf_injective : Function.Injective digitsOf := by
  intro m n h
  have hvalue := congrArg (Nat.ofDigitChars 10 · 0) h
  simpa only [digitsOf, Nat.ofDigitChars_ten_toDigits] using hvalue

/-- Only zero is written with a zero in front. -/
theorem exists_digitsOf_eq_cons {n : Nat} (hn : n ≠ 0) :
    ∃ c ds, digitsOf n = c :: ds ∧ c ≠ '0' := by
  induction n using Nat.strongRecOn with
  | ind n ih =>
    unfold digitsOf at ih ⊢
    rcases Nat.lt_or_ge n 10 with hlt | hge
    · have hdigit : ∀ d < 10, d ≠ 0 → Nat.digitChar d ≠ '0' := by decide
      exact ⟨_, [], Nat.toDigits_of_lt_base hlt, hdigit n hlt hn⟩
    · obtain ⟨c, ds, hds, hc⟩ := ih (n / 10) (by omega) (by omega)
      rw [Nat.toDigits_of_base_le (by decide) hge, hds]
      exact ⟨c, _, rfl, hc⟩

/-- The text does not go on with a number. -/
def EndsNumber (rest : List Char) : Prop :=
  ∀ c ∈ rest.head?, c.isDigit = false ∧ c ≠ '.' ∧ c ≠ 'e' ∧ c ≠ 'E'

theorem endsNumber_nil : EndsNumber [] := by
  simp [EndsNumber]

theorem endsNumber_cons {c : Char} (rest : List Char)
    (h : c.isDigit = false ∧ c ≠ '.' ∧ c ≠ 'e' ∧ c ≠ 'E') : EndsNumber (c :: rest) := by
  simpa [EndsNumber] using h

/-- The text does not go on with a digit. -/
def EndsDigits (rest : List Char) : Prop :=
  ∀ c ∈ rest.head?, c.isDigit = false

theorem EndsNumber.endsDigits {rest : List Char} (h : EndsNumber rest) : EndsDigits rest :=
  fun c hc => (h c hc).1

theorem digits_append {ds rest : List Char} (hds : ∀ c ∈ ds, c.isDigit)
    (hrest : EndsDigits rest) : digits (ds ++ rest) = (ds, rest) := by
  rw [digits, List.span_eq_takeWhile_dropWhile, List.takeWhile_append_of_pos hds,
    List.dropWhile_append_of_pos hds]
  cases rest with
  | nil => simp
  | cons c rest => simp [hrest c rfl]

/-- Digits that start with a zero only if they are nothing else. -/
def NoLeadingZero (ds : List Char) : Prop :=
  ds = ['0'] ∨ ∃ c rest, ds = c :: rest ∧ c ≠ '0'

theorem noLeadingZero_digitsOf (n : Nat) : NoLeadingZero (digitsOf n) := by
  by_cases hn : n = 0
  · subst hn
    exact .inl rfl
  · exact .inr (exists_digitsOf_eq_cons hn)

theorem integerPart?_append {ds rest : List Char} (hds : ∀ c ∈ ds, c.isDigit)
    (hzero : NoLeadingZero ds) (hrest : EndsDigits rest) :
    integerPart? (ds ++ rest) = some (ds, rest) := by
  rcases hzero with rfl | ⟨c, tail, rfl, hc⟩
  · rfl
  · unfold integerPart?
    split
    · next heq => exact absurd (List.cons.inj heq).1 hc
    · rw [digits_append hds hrest]
      rfl

theorem integerPart?_digitsOf (n : Nat) {rest : List Char} (hrest : EndsNumber rest) :
    integerPart? (digitsOf n ++ rest) = some (digitsOf n, rest) :=
  integerPart?_append (fun _ => isDigit_of_mem_digitsOf) (noLeadingZero_digitsOf n)
    hrest.endsDigits

theorem fractionPart?_of_endsNumber {rest : List Char} (h : EndsNumber rest) :
    fractionPart? rest = some ([], rest) := by
  unfold fractionPart?
  split
  · next r => exact absurd rfl (h '.' rfl).2.1
  · rfl

theorem exponentPart?_of_endsNumber {rest : List Char} (h : EndsNumber rest) :
    exponentPart? rest = some (none, rest) := by
  unfold exponentPart?
  dsimp only
  split
  · next r => exact absurd rfl (h 'e' rfl).2.2.1
  · next r => exact absurd rfl (h 'E' rfl).2.2.2
  · rfl

/-- More digits give no smaller number. -/
theorem le_ofDigitChars (ds : List Char) (n : Nat) : n ≤ Nat.ofDigitChars 10 ds n := by
  rw [Nat.ofDigitChars_eq_ofDigitChars_zero]
  exact Nat.le_add_right_of_le (Nat.le_mul_of_pos_left _ (Nat.pow_pos (by decide)))

/-- Digits that give a number of 64 bits are all kept. -/
theorem appendDigits_of_lt {ds : List Char} :
    ∀ {significand : Nat}, Nat.ofDigitChars 10 ds significand < UInt64.size →
      appendDigits significand ds = (Nat.ofDigitChars 10 ds significand, 0) := by
  induction ds with
  | nil => intro significand _; rfl
  | cons c ds ih =>
    intro significand h
    rw [Nat.ofDigitChars_cons] at h ⊢
    have hle : 10 * significand + digitValue c ≤
        Nat.ofDigitChars 10 ds (10 * significand + digitValue c) := le_ofDigitChars ds _
    rw [appendDigits, if_pos (Nat.lt_of_le_of_lt hle h)]
    exact ih h

theorem appendDigits_digitsOf {n : Nat} (h : n < UInt64.size) :
    appendDigits 0 (digitsOf n) = (n, 0) := by
  rw [appendDigits_of_lt, digitsOf, Nat.ofDigitChars_ten_toDigits]
  rwa [digitsOf, Nat.ofDigitChars_ten_toDigits]

theorem ofLiteral_digitsOf {n : Int} (hlow : Int64.minValue.toInt ≤ n)
    (hhigh : n < UInt64.size) :
    ofLiteral (decide (n < 0)) (digitsOf n.natAbs) [] none = .num (.whole n) := by
  have hmin : Int64.minValue.toInt = -9223372036854775808 := by decide
  have hsize : n.natAbs < UInt64.size := by
    rw [hmin] at hlow
    simp only [UInt64.size] at hhigh ⊢
    omega
  rw [ofLiteral, appendDigits_digitsOf hsize]
  by_cases hneg : n < 0
  · have habs : -(n.natAbs : Int) = n := by omega
    have hzero : n.natAbs ≠ 0 := by omega
    simp only [hneg, decide_true, if_true, habs, List.isEmpty_nil, Option.isNone_none,
      Bool.and_self, beq_self_eq_true, Bool.true_and, beq_eq_false_iff_ne.mpr hzero,
      Bool.false_or, decide_eq_true_eq, if_neg (Int.not_lt.mpr hlow)]
  · have habs : (n.natAbs : Int) = n := by omega
    simp [hneg, habs]

theorem exists_digitsOf_eq_cons_digit (n : Nat) :
    ∃ c ds, digitsOf n = c :: ds ∧ c.isDigit := by
  obtain ⟨c, ds, hds⟩ := List.exists_cons_of_ne_nil (Nat.toDigits_ne_nil (n := n) (b := 10))
  refine ⟨c, ds, hds, isDigit_of_mem_digitsOf (n := n) ?_⟩
  rw [digitsOf, hds]
  exact List.mem_cons_self ..

/-- Whole numbers of 64 bits, with or without a sign, are read back. -/
theorem number?_ofInteger {n : Int} (hlow : Int64.minValue.toInt ≤ n) (hhigh : n < UInt64.size)
    {rest : List Char} (hrest : EndsNumber rest) :
    number? (ofInteger n ++ rest) = some (.num (.whole n), rest) := by
  have hliteral := ofLiteral_digitsOf hlow hhigh
  have hinteger := integerPart?_digitsOf n.natAbs hrest
  unfold number?
  by_cases hneg : n < 0
  · rw [decide_eq_true hneg] at hliteral
    rw [ofInteger, if_pos hneg, List.cons_append]
    simp only [hinteger, fractionPart?_of_endsNumber hrest, exponentPart?_of_endsNumber hrest,
      Option.bind_eq_bind, Option.bind_some, hliteral]
  · rw [decide_eq_false hneg] at hliteral
    rw [ofInteger, if_neg hneg]
    split
    next negative s hsign =>
    split at hsign
    · next r heq =>
      obtain ⟨c, ds, hds, hc⟩ := exists_digitsOf_eq_cons_digit n.natAbs
      rw [hds] at heq
      obtain rfl : c = '-' := (List.cons.inj heq).1
      exact absurd hc (by decide)
    · obtain ⟨rfl, rfl⟩ := Prod.mk.inj hsign
      simp only [hinteger, fractionPart?_of_endsNumber hrest, exponentPart?_of_endsNumber hrest,
        Option.bind_eq_bind, Option.bind_some, hliteral]

/-! ## Strings -/

theorem hexValue?_hexDigit (n : Nat) : hexValue? (hexDigit n) = some (n % 16) := by
  have hall : ∀ d < 16, hexValue? (Nat.digitChar d) = some d := by decide
  exact hall (n % 16) (Nat.mod_lt n (by decide))

/-- A control character is the number in its escape. -/
theorem hexFour?_hexDigits {n : Nat} (h : n < 0x20) :
    hexFour? '0' '0' (hexDigit (n / 16)) (hexDigit n) = some n := by
  have hzero : hexValue? '0' = some 0 := by decide
  simp only [hexFour?, hzero, hexValue?_hexDigit, Option.bind_eq_bind, Option.bind_some,
    Option.some.injEq]
  omega

theorem joinPieces_unit {n : Nat} (h : n < 0xD800) (joined : List Char) (ps : List Piece) :
    joinPieces joined (.unit n :: ps) = joinPieces (Char.ofNat n :: joined) ps := by
  rw [joinPieces.eq_def]
  simp only [decide_eq_true h, Bool.true_or, if_true]

/-- A character is escaped by a letter, by its number, or not at all. -/
theorem escape_cases (c : Char) :
    (∃ e, escape c = ['\\', e] ∧ simpleEscape? e = some c ∧ 0x20 ≤ e.toNat) ∨
    (escape c = ['\\', 'u', '0', '0', hexDigit (c.toNat / 16), hexDigit c.toNat] ∧
      c.toNat < 0x20) ∨
    (escape c = [c] ∧ c ≠ '"' ∧ c ≠ '\\' ∧ 0x20 ≤ c.toNat) := by
  by_cases hshort : c ∈ ['"', '\\', '\n', '\r', '\t', '\x08', '\x0c']
  · left
    simp only [List.mem_cons, List.not_mem_nil, or_false] at hshort
    rcases hshort with rfl | rfl | rfl | rfl | rfl | rfl | rfl
    · exact ⟨'"', by decide⟩
    · exact ⟨'\\', by decide⟩
    · exact ⟨'n', by decide⟩
    · exact ⟨'r', by decide⟩
    · exact ⟨'t', by decide⟩
    · exact ⟨'b', by decide⟩
    · exact ⟨'f', by decide⟩
  · right
    simp only [List.mem_cons, List.not_mem_nil, or_false, not_or] at hshort
    obtain ⟨hquote, hslash, hn, hr, ht, hb, hf⟩ := hshort
    simp only [escape, hquote, hslash, hn, hr, ht, hb, hf, if_false]
    rcases Nat.lt_or_ge c.toNat 0x20 with hlow | hlow
    · exact .inl ⟨if_pos hlow, hlow⟩
    · exact .inr ⟨if_neg (Nat.not_lt.mpr hlow), hquote, hslash, hlow⟩

theorem pieces_simpleEscape {e c : Char} (h : simpleEscape? e = some c) (read : List Piece)
    (r : List Char) : pieces read ('\\' :: e :: r) = pieces (.char c :: read) r := by
  have hu : e ≠ 'u' := by
    rintro rfl
    exact absurd h (Option.some_ne_none c).symm
  rw [pieces]
  · rw [h]
  · intro a b c d r' heq
    exact absurd heq hu

theorem pieces_char {c : Char} (hquote : c ≠ '"') (hslash : c ≠ '\\') (hlow : 0x20 ≤ c.toNat)
    (read : List Piece) (r : List Char) :
    pieces read (c :: r) = pieces (.char c :: read) r := by
  have hplain : ¬(c.toNat < 0x20 || c = '\\') := by simp [hslash, hlow]
  rw [pieces.eq_def]
  split
  · next heq => exact absurd heq (List.cons_ne_nil c r)
  · next heq => exact absurd (List.cons.inj heq).1 hquote
  · next heq => exact absurd (List.cons.inj heq).1 hslash
  · next heq => exact absurd (List.cons.inj heq).1 hslash
  · next heq =>
    obtain ⟨rfl, rfl⟩ := List.cons.inj heq
    rw [if_neg hplain]

/-- Each character is read back as one piece, which stands for it. -/
theorem exists_piece (c : Char) : ∃ p : Piece,
    (∀ read r, pieces read (escape c ++ r) = pieces (p :: read) r) ∧
    ∀ joined ps, joinPieces joined (p :: ps) = joinPieces (c :: joined) ps := by
  rcases escape_cases c with ⟨e, hescape, he, -⟩ | ⟨hescape, hlow⟩ |
    ⟨hescape, hquote, hslash, hlow⟩ <;> rw [hescape]
  · exact ⟨.char c, fun read r => pieces_simpleEscape he read r,
      fun joined ps => by rw [joinPieces]⟩
  · refine ⟨.unit c.toNat, fun read r => ?_, fun joined ps => ?_⟩
    · simp only [List.cons_append, List.nil_append, pieces, hexFour?_hexDigits hlow]
    · rw [joinPieces_unit (by omega), Char.ofNat_toNat]
  · exact ⟨.char c, fun read r => pieces_char hquote hslash hlow read r,
      fun joined ps => by rw [joinPieces]⟩

theorem exists_pieces (cs : List Char) : ∃ ps : List Piece,
    (∀ read r, pieces read (cs.flatMap escape ++ '"' :: r) = some (read.reverse ++ ps, r)) ∧
    ∀ joined, joinPieces joined ps = some (joined.reverse ++ cs) := by
  induction cs with
  | nil => exact ⟨[], by simp [pieces], by simp [joinPieces]⟩
  | cons c cs ih =>
    obtain ⟨p, hread, hjoin⟩ := exists_piece c
    obtain ⟨ps, hreads, hjoins⟩ := ih
    refine ⟨p :: ps, fun read r => ?_, fun joined => ?_⟩
    · rw [List.flatMap_cons, List.append_assoc, hread, hreads, List.reverse_cons,
        List.append_assoc]
      rfl
    · rw [hjoin, hjoins, List.reverse_cons, List.append_assoc]
      rfl

/-- Every string is read back, whatever characters are in it. -/
theorem string?_escape (s : String) (r : List Char) :
    string? (s.toList.flatMap escape ++ '"' :: r) = some (some s, r) := by
  obtain ⟨ps, hreads, hjoins⟩ := exists_pieces s.toList
  have hjoin : joinPieces [] ps = some s.toList := hjoins []
  rw [string?, hreads]
  simp only [List.reverse_nil, List.nil_append, Option.map_some, hjoin, String.ofList_toList]

/-! ## No control characters -/

/-- The text has no control character, so it has no line break. -/
def Printable (s : List Char) : Prop :=
  ∀ c ∈ s, 0x20 ≤ c.toNat

theorem Printable.of_all {s : List Char} (h : s.all (0x20 ≤ ·.toNat)) : Printable s := by
  intro c hc
  exact of_decide_eq_true (List.all_eq_true.mp h c hc)

theorem Printable.nil : Printable [] :=
  .of_all rfl

theorem Printable.append {s t : List Char} (hs : Printable s) (ht : Printable t) :
    Printable (s ++ t) := by
  intro c hc
  rcases List.mem_append.mp hc with h | h
  · exact hs c h
  · exact ht c h

theorem Printable.cons {c : Char} {s : List Char} (hc : 0x20 ≤ c.toNat) (hs : Printable s) :
    Printable (c :: s) := by
  intro d hd
  rcases List.mem_cons.mp hd with rfl | h
  · exact hc
  · exact hs d h

theorem Printable.newline_not_mem {s : List Char} (h : Printable s) : '\n' ∉ s :=
  fun hmem => absurd (h '\n' hmem) (by decide)

theorem printable_ofInteger (n : Int) : Printable (ofInteger n) := by
  have hdigits : Printable (digitsOf n.natAbs) := by
    intro c hc
    have hdigit := Char.isDigit_iff_toNat.mp (isDigit_of_mem_digitsOf hc)
    exact Nat.le_trans (by decide) hdigit.1
  rw [ofInteger]
  split
  · exact .cons (by decide) hdigits
  · exact hdigits

theorem printable_escape (c : Char) : Printable (escape c) := by
  have hdigit : ∀ n, 0x20 ≤ (hexDigit n).toNat := by
    have hall : ∀ d < 16, 0x20 ≤ (Nat.digitChar d).toNat := by decide
    exact fun n => hall (n % 16) (Nat.mod_lt n (by decide))
  rcases escape_cases c with ⟨e, hescape, -, hlow⟩ | ⟨hescape, -⟩ | ⟨hescape, -, -, hlow⟩ <;>
    rw [hescape]
  · exact .cons (by decide) (.cons hlow .nil)
  · exact .cons (by decide) (.cons (by decide) (.cons (by decide) (.cons (by decide)
      (.cons (hdigit _) (.cons (hdigit _) .nil)))))
  · exact .cons hlow .nil

theorem printable_quote (s : String) : Printable (quote s) := by
  have hbody : Printable (s.toList.flatMap escape) := by
    intro c hc
    obtain ⟨d, -, hd⟩ := List.mem_flatMap.mp hc
    exact printable_escape d c hd
  exact .cons (by decide) (hbody.append (.cons (by decide) .nil))

end Json

end PaintBench
