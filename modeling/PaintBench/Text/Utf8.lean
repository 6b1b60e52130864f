/-!
# Reading UTF-8

`scan` reads bytes as UTF-8, one character or one malformed stretch at a time. A
malformed stretch is the longest start of a character that no further byte can
complete. `decode?` refuses malformed bytes, `decodeLossy` puts the replacement
character U+FFFD in place of each malformed stretch.
-/

namespace PaintBench.Text.Utf8

/-- A character whose first bytes have been read. -/
structure Pending where
  /-- the bits read so far -/
  bits : Nat
  /-- how many bytes are still to come, at least one -/
  missing : Nat
  /-- the least byte that may come next -/
  low : UInt8
  /-- the greatest byte that may come next -/
  high : UInt8

/-- What the first byte of a character says: the character itself, how to go on, or
that no character starts so. -/
def first (b : UInt8) : Option Char ⊕ Pending :=
  let n := b.toNat
  if n < 0x80 then .inl (some (Char.ofNat n))
  else if n < 0xC2 then .inl none
  else if n < 0xE0 then .inr ⟨n % 0x20, 1, 0x80, 0xBF⟩
  else if n < 0xF0 then
    .inr ⟨n % 0x10, 2, if n = 0xE0 then 0xA0 else 0x80, if n = 0xED then 0x9F else 0xBF⟩
  else if n < 0xF5 then
    .inr ⟨n % 0x08, 3, if n = 0xF0 then 0x90 else 0x80, if n = 0xF4 then 0x8F else 0xBF⟩
  else .inl none

/-- Read bytes; each `none` is a malformed stretch. -/
def scan : Option Pending → List UInt8 → List (Option Char)
  | none, [] => []
  | some _, [] => [none]
  | pending, b :: r =>
    let start (cut : List (Option Char)) : List (Option Char) :=
      match first b with
      | .inl c => cut ++ c :: scan none r
      | .inr p => cut ++ scan (some p) r
    match pending with
    | none => start []
    | some p =>
      if p.low ≤ b && b ≤ p.high then
        let bits := p.bits * 0x40 + b.toNat % 0x40
        if p.missing ≤ 1 then some (Char.ofNat bits) :: scan none r
        else scan (some ⟨bits, p.missing - 1, 0x80, 0xBF⟩) r
      else start [none]

/-- The text that the bytes encode, if they encode one. -/
def decode? (bytes : List UInt8) : Option (List Char) :=
  (scan none bytes).mapM id

/-- The text of the bytes, with U+FFFD for each malformed stretch. -/
def decodeLossy (bytes : List UInt8) : List Char :=
  (scan none bytes).map (·.getD (Char.ofNat 0xFFFD))

/-- The bytes of a text. -/
def encode (s : List Char) : List UInt8 :=
  (String.ofList s).toUTF8.toList

end PaintBench.Text.Utf8
