import PaintBench.Text.Utf8

/-!
# Texts survive UTF-8

The bytes of a character are read as that character, whatever bytes follow
(`scan_encodeChar`), so the bytes of a text are read as the text (`decodeLossy_encode`).
-/

namespace PaintBench.Text.Utf8

/-! ## The bytes of a text -/

theorem toList_loop (bytes : ByteArray) (i : Nat) (read : List UInt8) :
    ByteArray.toList.loop bytes i read = read.reverse ++ bytes.data.toList.drop i := by
  fun_induction ByteArray.toList.loop bytes i read with
  | case1 i read h ih =>
    have hlt : i < bytes.data.toList.length := h
    have hget : bytes.get! i = bytes.data.toList[i] := getElem!_pos bytes.data i h
    rw [ih, List.drop_eq_getElem_cons hlt, List.reverse_cons, List.append_assoc, hget]
    rfl
  | case2 i read h =>
    have hle : bytes.data.toList.length ≤ i := Nat.le_of_not_lt h
    rw [List.drop_eq_nil_of_le hle, List.append_nil]

theorem encode_eq_flatMap (s : List Char) : encode s = s.flatMap String.utf8EncodeChar := by
  rw [encode, String.toUTF8_eq_toByteArray, String.toByteArray_ofList, ByteArray.toList,
    toList_loop, List.utf8Encode, List.toList_data_toByteArray]
  rfl

/-! ## Reading one character -/

theorem scan_first {b : UInt8} {c : Option Char} (h : first b = .inl c) (r : List UInt8) :
    scan none (b :: r) = c :: scan none r := by
  simp only [scan, h, List.nil_append]

theorem scan_lead {b : UInt8} {p : Pending} (h : first b = .inr p) (r : List UInt8) :
    scan none (b :: r) = scan (some p) r := by
  simp only [scan, h, List.nil_append]

theorem scan_more {p : Pending} {b : UInt8} (hlow : p.low ≤ b) (hhigh : b ≤ p.high)
    (hmissing : 1 < p.missing) (r : List UInt8) :
    scan (some p) (b :: r) =
      scan (some ⟨p.bits * 0x40 + b.toNat % 0x40, p.missing - 1, 0x80, 0xBF⟩) r := by
  simp only [scan, hlow, hhigh, decide_true, Bool.and_self, if_true,
    if_neg (Nat.not_le.mpr hmissing)]

theorem scan_last {p : Pending} {b : UInt8} (hlow : p.low ≤ b) (hhigh : b ≤ p.high)
    (hmissing : p.missing ≤ 1) (r : List UInt8) :
    scan (some p) (b :: r) =
      some (Char.ofNat (p.bits * 0x40 + b.toNat % 0x40)) :: scan none r := by
  simp only [scan, hlow, hhigh, decide_true, Bool.and_self, if_true, hmissing]

theorem first_one {b : UInt8} (h : b.toNat < 0x80) :
    first b = .inl (some (Char.ofNat b.toNat)) := by
  rw [first, if_pos h]

theorem first_two {b : UInt8} (hlow : 0xC2 ≤ b.toNat) (hhigh : b.toNat < 0xE0) :
    first b = .inr ⟨b.toNat % 0x20, 1, 0x80, 0xBF⟩ := by
  rw [first, if_neg (by omega), if_neg (by omega), if_pos hhigh]

theorem first_three {b : UInt8} (hlow : 0xE0 ≤ b.toNat) (hhigh : b.toNat < 0xF0) :
    first b = .inr ⟨b.toNat % 0x10, 2, if b.toNat = 0xE0 then 0xA0 else 0x80,
      if b.toNat = 0xED then 0x9F else 0xBF⟩ := by
  rw [first, if_neg (by omega), if_neg (by omega), if_neg (by omega), if_pos hhigh]

theorem first_four {b : UInt8} (hlow : 0xF0 ≤ b.toNat) (hhigh : b.toNat < 0xF5) :
    first b = .inr ⟨b.toNat % 0x08, 3, if b.toNat = 0xF0 then 0x90 else 0x80,
      if b.toNat = 0xF4 then 0x8F else 0xBF⟩ := by
  rw [first, if_neg (by omega), if_neg (by omega), if_neg (by omega), if_neg (by omega),
    if_pos hhigh]

theorem toNat_ofNat_of_lt {n : Nat} (h : n < 256) : (UInt8.ofNat n).toNat = n :=
  Nat.mod_eq_of_lt h

/-- A byte for six bits of a character, after the first byte. -/
theorem toNat_tail (n : Nat) : (UInt8.ofNat (n % 0x40 + 0x80)).toNat = n % 0x40 + 0x80 :=
  toNat_ofNat_of_lt (by omega)

theorem scan_tail_more {low high : UInt8} {n : Nat} (hlow : low.toNat ≤ n % 0x40 + 0x80)
    (hhigh : n % 0x40 + 0x80 ≤ high.toNat) (bits missing : Nat) (r : List UInt8) :
    scan (some ⟨bits, missing + 2, low, high⟩) (UInt8.ofNat (n % 0x40 + 0x80) :: r) =
      scan (some ⟨bits * 0x40 + n % 0x40, missing + 1, 0x80, 0xBF⟩) r := by
  have hbits : (n % 0x40 + 0x80) % 0x40 = n % 0x40 := by omega
  rw [← toNat_tail, ← UInt8.le_iff_toNat_le] at hlow hhigh
  rw [scan_more hlow hhigh (by simp), toNat_tail, hbits]
  rfl

theorem scan_tail_last (bits n : Nat) (r : List UInt8) :
    scan (some ⟨bits, 1, 0x80, 0xBF⟩) (UInt8.ofNat (n % 0x40 + 0x80) :: r) =
      some (Char.ofNat (bits * 0x40 + n % 0x40)) :: scan none r := by
  have hbits : (n % 0x40 + 0x80) % 0x40 = n % 0x40 := by omega
  have hlow : (0x80 : UInt8) ≤ UInt8.ofNat (n % 0x40 + 0x80) := by
    rw [UInt8.le_iff_toNat_le, toNat_tail]
    exact Nat.le_add_left ..
  have hhigh : UInt8.ofNat (n % 0x40 + 0x80) ≤ 0xBF := by
    rw [UInt8.le_iff_toNat_le, toNat_tail]
    exact Nat.le_of_lt_succ (by simp; omega)
  rw [scan_last hlow hhigh (by simp), toNat_tail, hbits]

theorem scan_two {v : Nat} (hlow : 0x7F < v) (hhigh : v ≤ 0x7FF) (r : List UInt8) :
    scan none (UInt8.ofNat (v / 64 % 0x20 + 0xC0) :: UInt8.ofNat (v % 0x40 + 0x80) :: r) =
      some (Char.ofNat v) :: scan none r := by
  have hbyte : (UInt8.ofNat (v / 64 % 0x20 + 0xC0)).toNat = v / 64 % 0x20 + 0xC0 :=
    toNat_ofNat_of_lt (by omega)
  have hbits : (v / 64 % 0x20 + 0xC0) % 0x20 * 0x40 + v % 0x40 = v := by omega
  rw [scan_lead (first_two (by omega) (by omega)), hbyte, scan_tail_last, hbits]

/-- The second of three bytes is in its range, since there are shorter forms for smaller
numbers and surrogates are no characters. -/
theorem scan_three {v : Nat} (hlow : 0x7FF < v) (hhigh : v ≤ 0xFFFF)
    (hvalid : v < 0xD800 ∨ 0xDFFF < v) (r : List UInt8) :
    scan none (UInt8.ofNat (v / 4096 % 0x10 + 0xE0) :: UInt8.ofNat (v / 64 % 0x40 + 0x80) ::
      UInt8.ofNat (v % 0x40 + 0x80) :: r) = some (Char.ofNat v) :: scan none r := by
  have hbyte : (UInt8.ofNat (v / 4096 % 0x10 + 0xE0)).toNat = v / 4096 % 0x10 + 0xE0 :=
    toNat_ofNat_of_lt (by omega)
  have hbits : ((v / 4096 % 0x10 + 0xE0) % 0x10 * 0x40 + v / 64 % 0x40) * 0x40 + v % 0x40 =
      v := by
    omega
  rw [scan_lead (first_three (by omega) (by omega)), hbyte, scan_tail_more, scan_tail_last, hbits]
  · split
    · simp
      omega
    · simp
  · split
    · simp
      omega
    · simp
      omega

/-- The second of four bytes is in its range, since there are shorter forms for smaller
numbers and no characters beyond U+10FFFF. -/
theorem scan_four {v : Nat} (hlow : 0xFFFF < v) (hhigh : v < 0x110000) (r : List UInt8) :
    scan none (UInt8.ofNat (v / 262144 % 0x08 + 0xF0) :: UInt8.ofNat (v / 4096 % 0x40 + 0x80) ::
      UInt8.ofNat (v / 64 % 0x40 + 0x80) :: UInt8.ofNat (v % 0x40 + 0x80) :: r) =
      some (Char.ofNat v) :: scan none r := by
  have hbyte : (UInt8.ofNat (v / 262144 % 0x08 + 0xF0)).toNat = v / 262144 % 0x08 + 0xF0 :=
    toNat_ofNat_of_lt (by omega)
  have hbits : (((v / 262144 % 0x08 + 0xF0) % 0x08 * 0x40 + v / 4096 % 0x40) * 0x40 +
      v / 64 % 0x40) * 0x40 + v % 0x40 = v := by
    omega
  rw [scan_lead (first_four (by omega) (by omega)), hbyte, scan_tail_more, scan_tail_more,
    scan_tail_last, hbits]
  · simp
  · simp; omega
  · split
    · simp
      omega
    · simp
  · split
    · simp
      omega
    · simp
      omega

theorem scan_encodeChar (c : Char) (r : List UInt8) :
    scan none (String.utf8EncodeChar c ++ r) = some c :: scan none r := by
  have hvalid : c.val.toNat < 0xD800 ∨ 0xDFFF < c.val.toNat ∧ c.val.toNat < 0x110000 := c.valid
  have hchar : Char.ofNat c.val.toNat = c := Char.ofNat_toNat c
  unfold String.utf8EncodeChar
  generalize c.val.toNat = v at hvalid hchar ⊢
  dsimp only
  split
  · next h =>
    have hbyte : (UInt8.ofNat v).toNat = v := toNat_ofNat_of_lt (by omega)
    rw [List.cons_append, scan_first (first_one (by omega)), hbyte, hchar]
    rfl
  split
  · exact (scan_two (by omega) (by omega) r).trans (by rw [hchar])
  split
  · exact (scan_three (by omega) (by omega) (by omega) r).trans (by rw [hchar])
  · exact (scan_four (by omega) (by omega) r).trans (by rw [hchar])

/-! ## Reading a text -/

theorem scan_encode (s : List Char) : scan none (encode s) = s.map some := by
  rw [encode_eq_flatMap]
  induction s with
  | nil => rfl
  | cons c s ih => rw [List.flatMap_cons, scan_encodeChar, ih, List.map_cons]

/-- The bytes of a text have no malformed stretch. -/
theorem decodeLossy_encode (s : List Char) : decodeLossy (encode s) = s := by
  rw [decodeLossy, scan_encode, List.map_map]
  exact List.map_id s

end PaintBench.Text.Utf8
