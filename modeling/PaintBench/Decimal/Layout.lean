import PaintBench.Decimal.Shortest

/-!
# Writing numbers

`Layout` holds the decisions of a number format: which values are written without an
exponent, whether a whole number keeps a fraction, which way an exact half goes.
`Layout.plain` is the format of messages, `Layout.data` that of result files. The digits
themselves are the fewest that read back (`shortest`).

`scientific` writes a fixed number of significant digits instead, and `nanoseconds`
writes a length of time with its largest fitting unit.
-/

namespace PaintBench.Decimal

/-- The decimal digits of a number. -/
def digitsOf (n : Nat) : List Char :=
  Nat.toDigits 10 n

/-- The number that decimal digits stand for; other characters count as zero. -/
def valueOf (digits : List Char) : Nat :=
  digits.foldl (fun n c => 10 * n + (if c.isDigit then c.toNat - '0'.toNat else 0)) 0

/-- A whole number in decimal. -/
def ofInteger (n : Int) : List Char :=
  if n < 0 then '-' :: digitsOf n.natAbs else digitsOf n.natAbs

/-- The decisions of a number format. -/
structure Layout where
  /-- Whether a number is written without an exponent, given how many places before
  the decimal point its first digit stands. -/
  positional : Int → Bool
  /-- Whether a whole number without an exponent keeps the fraction `.0`. -/
  keepFraction : Bool
  /-- Which way an exact half goes. -/
  tie : Tie
  nan : List Char
  /-- The text of an infinite number, which may be negative. -/
  infinite : Bool → List Char

/-- Messages write every number without an exponent and with no needless fraction. -/
def Layout.plain : Layout where
  positional _ := true
  keepFraction := false
  tie := .up
  nan := "NaN".toList
  infinite negative := if negative then "-inf".toList else "inf".toList

/-- Result files write numbers from `10⁻⁵` up to `10¹⁶` without an exponent, always with
a fraction; the others have an exponent with its sign. Data has no other numbers. -/
def Layout.data : Layout where
  positional point := -5 < point && point ≤ 16
  keepFraction := true
  tie := .even
  nan := "null".toList
  infinite _ := "null".toList

/-- An exponent with its sign. -/
def exponentText (e : Int) : List Char :=
  if e < 0 then '-' :: digitsOf e.natAbs else '+' :: digitsOf e.natAbs

/-- Digits with the decimal point after the `point`-th of them. -/
def positionalText (keepFraction : Bool) (digits : List Char) (point : Int) : List Char :=
  if point ≤ 0 then
    '0' :: '.' :: List.replicate point.natAbs '0' ++ digits
  else if digits.length ≤ point.natAbs then
    digits ++ List.replicate (point.natAbs - digits.length) '0' ++
      if keepFraction then ['.', '0'] else []
  else
    digits.take point.natAbs ++ '.' :: digits.drop point.natAbs

/-- Digits with the decimal point after the first of them, then an exponent. -/
def exponentialText (digits : List Char) (exponent : List Char) : List Char :=
  match digits with
  | [] => []
  | [d] => d :: 'e' :: exponent
  | d :: rest => d :: '.' :: rest ++ 'e' :: exponent

/-- A number in a format. -/
def Layout.write (layout : Layout) (x : Float) : List Char :=
  let signed (negative : Bool) (text : List Char) := if negative then '-' :: text else text
  match unpack x with
  | .nan => layout.nan
  | .infinite negative => layout.infinite negative
  | .finite negative 0 _ =>
    signed negative ('0' :: if layout.keepFraction then ['.', '0'] else [])
  | .finite negative m s =>
    let found := shortest layout.tie m s
    let digits := digitsOf found.digits
    let point : Int := digits.length + found.exponent
    signed negative <|
      if layout.positional point then positionalText layout.keepFraction digits point
      else exponentialText digits (exponentText (point - 1))

/-- A positive fraction rounded to a multiple of the greatest power of ten that leaves
`places` digits after its first one. The tries bound the search for the exponent from
above. -/
def scientificDigits (places num den : Nat) : Nat → Int → Digits
  | 0, exponent => ⟨0, exponent⟩
  | tries + 1, exponent =>
    let whole := num * powerOfTen (-exponent).toNat
    let unit := den * powerOfTen exponent.toNat
    if powerOfTen places * unit ≤ whole then ⟨roundHalfEven whole unit, exponent⟩
    else scientificDigits places num den tries (exponent - 1)

/-- A number with `places` digits after the first one, correctly rounded. -/
def scientific (places : Nat) (x : Float) : List Char :=
  let signed (negative : Bool) (text : List Char) := if negative then '-' :: text else text
  match unpack x with
  | .nan => "NaN".toList
  | .infinite negative => signed negative "inf".toList
  | .finite negative 0 _ =>
    signed negative (exponentialText (List.replicate (places + 1) '0') ['0'])
  | .finite negative m s =>
    let magnitude : Int := Nat.log2 m + s - 1074
    let found := scientificDigits places (m * powerOfTwo s) (powerOfTwo 1074) 8
      (magnitude * 30103 / 100000 + 2 - places)
    let digits := digitsOf found.digits
    signed negative <|
      exponentialText (digits.take (places + 1))
        (ofInteger (found.exponent + digits.length - 1))

/-- A number of units of the last of some decimal places, with the fraction that it needs. -/
def withPlaces (places n : Nat) : List Char :=
  let fraction := (digitsOf (powerOfTen places + n % powerOfTen places)).drop 1
  let kept := (fraction.reverse.dropWhile (· = '0')).reverse
  digitsOf (n / powerOfTen places) ++ (if kept.isEmpty then [] else '.' :: kept)

/-- A length of time in the largest unit of which there is a whole one. -/
def nanoseconds (ns : Nat) : List Char :=
  if 1000000000 ≤ ns then withPlaces 9 ns ++ ['s']
  else if 1000000 ≤ ns then withPlaces 6 ns ++ ['m', 's']
  else if 1000 ≤ ns then withPlaces 3 ns ++ ['µ', 's']
  else digitsOf ns ++ ['n', 's']

end PaintBench.Decimal
