import PaintBench.Decimal.Layout
import PaintBench.Decimal.Scaled
import PaintBench.Json.Basic

/-!
# Reading JSON

`Json.parse?` reads a text that holds one JSON value and white space around it, and
refuses every other text. It is strict: no trailing commas, no leading zeros, no control
characters inside strings. Well-formed parts that no value stands for are unreadable: a
number too large for a `Float`, a text with a lone surrogate, an object with such a name,
and what opens more than `depthLimit` brackets inside each other.

The reader takes the text apart from the left. Each part returns what it read and the
rest of the text; `value` and its companions count down a bound on their steps, which
`parse?` takes from the length of the text.
-/

namespace PaintBench.Json

/-- How many brackets may be open at once. -/
def depthLimit : Nat := 127

/-- The text without its leading white space. -/
def skipSpace : List Char → List Char
  | ' ' :: r => skipSpace r
  | '\n' :: r => skipSpace r
  | '\t' :: r => skipSpace r
  | '\r' :: r => skipSpace r
  | s => s

/-- The value of a hexadecimal digit. -/
def hexValue? (c : Char) : Option Nat :=
  let n := c.toNat
  if 48 ≤ n && n ≤ 57 then some (n - 48)
  else if 65 ≤ n && n ≤ 70 then some (n - 55)
  else if 97 ≤ n && n ≤ 102 then some (n - 87)
  else none

/-- The number that four hexadecimal digits give. -/
def hexFour? (a b c d : Char) : Option Nat := do
  let a ← hexValue? a
  let b ← hexValue? b
  let c ← hexValue? c
  let d ← hexValue? d
  some (((a * 16 + b) * 16 + c) * 16 + d)

/-- The character of a one-letter escape. -/
def simpleEscape? : Char → Option Char
  | '"' => some '"'
  | '\\' => some '\\'
  | '/' => some '/'
  | 'b' => some '\x08'
  | 'f' => some '\x0c'
  | 'n' => some '\n'
  | 'r' => some '\r'
  | 't' => some '\t'
  | _ => none

/-- A piece of a string: a character, or a 16-bit unit that an escape gives by number. -/
inductive Piece where
  | char (c : Char)
  | unit (n : Nat)

/-- The pieces of a string after its opening quote, and the rest of the text. Those read
so far are kept in reverse. -/
def pieces (read : List Piece) : List Char → Option (List Piece × List Char)
  | [] => none
  | '"' :: r => some (read.reverse, r)
  | '\\' :: 'u' :: a :: b :: c :: d :: r =>
    match hexFour? a b c d with
    | some n => pieces (.unit n :: read) r
    | none => none
  | '\\' :: e :: r =>
    match simpleEscape? e with
    | some c => pieces (.char c :: read) r
    | none => none
  | c :: r => if c.toNat < 0x20 || c = '\\' then none else pieces (.char c :: read) r

/-- The characters of some pieces, after those joined so far, which are kept in reverse. A
character beyond 16 bits takes a pair of surrogates; one without its partner is no part of
any text. -/
def joinPieces (joined : List Char) : List Piece → Option (List Char)
  | [] => some joined.reverse
  | .char c :: rest => joinPieces (c :: joined) rest
  | .unit n :: rest =>
    if n < 0xD800 || 0xE000 ≤ n then joinPieces (Char.ofNat n :: joined) rest
    else
      match rest with
      | .unit low :: rest =>
        if n < 0xDC00 && 0xDC00 ≤ low && low < 0xE000 then
          let c := Char.ofNat (0x10000 + (n - 0xD800) * 0x400 + (low - 0xDC00))
          joinPieces (c :: joined) rest
        else none
      | _ => none

/-- A string after its opening quote; no text where it has a lone surrogate. -/
def string? (s : List Char) : Option (Option String × List Char) :=
  (pieces [] s).map fun (ps, r) => ((joinPieces [] ps).map String.ofList, r)

/-- The digits at the start of the text, and the rest. -/
def digits (s : List Char) : List Char × List Char :=
  s.span Char.isDigit

/-- The digits before the decimal point: no leading zero but zero itself. -/
def integerPart? (s : List Char) : Option (List Char × List Char) :=
  match s with
  | '0' :: r => some (['0'], r)
  | _ =>
    let (ds, r) := digits s
    if ds.isEmpty then none else some (ds, r)

/-- The digits after the decimal point; none if there is no point. -/
def fractionPart? (s : List Char) : Option (List Char × List Char) :=
  match s with
  | '.' :: r =>
    let (ds, r) := digits r
    if ds.isEmpty then none else some (ds, r)
  | _ => some ([], s)

/-- The exponent, if there is one. -/
def exponentPart? (s : List Char) : Option (Option Int × List Char) :=
  let unsigned (negative : Bool) (s : List Char) : Option (Option Int × List Char) :=
    let (ds, r) := digits s
    if ds.isEmpty then none
    else
      let n : Int := Decimal.valueOf ds
      some (some (if negative then -n else n), r)
  let marked (r : List Char) :=
    match r with
    | '+' :: r => unsigned false r
    | '-' :: r => unsigned true r
    | _ => unsigned false r
  match s with
  | 'e' :: r => marked r
  | 'E' :: r => marked r
  | _ => some (none, s)

/-- A `Float`, if the number is not too large for one. -/
def ofFinite (x : Float) : Json :=
  if Decimal.isFinite x then .num (.float x) else .unreadable

/-- The value of a literal. What has no fraction and no exponent is a whole number if it
fits into 64 bits; minus zero is a `Float`. -/
def ofLiteral (negative : Bool) (whole fraction : List Char) (exponent : Option Int) : Json :=
  let (significand, skipped) := Decimal.appendDigits 0 whole
  if fraction.isEmpty && exponent.isNone && skipped == 0 then
    let n : Int := if negative then -significand else significand
    if negative && (significand == 0 || n < Int64.minValue.toInt) then
      ofFinite (-Decimal.nearest false significand 1)
    else .num (.whole n)
  else
    let (significand, skippedFraction) := Decimal.appendDigits significand fraction
    let places : Int := (skipped : Int) + skippedFraction - fraction.length
    ofFinite (Decimal.scaled negative significand (places + exponent.getD 0))

/-- A number. -/
def number? (s : List Char) : Option (Json × List Char) := do
  let (negative, s) := match s with
    | '-' :: r => (true, r)
    | _ => (false, s)
  let (whole, s) ← integerPart? s
  let (fraction, s) ← fractionPart? s
  let (exponent, s) ← exponentPart? s
  some (ofLiteral negative whole fraction exponent, s)

/-- A value without brackets. -/
def scalar? (s : List Char) : Option (Json × List Char) :=
  match s with
  | 'n' :: 'u' :: 'l' :: 'l' :: r => some (.null, r)
  | 't' :: 'r' :: 'u' :: 'e' :: r => some (.bool true, r)
  | 'f' :: 'a' :: 'l' :: 's' :: 'e' :: r => some (.bool false, r)
  | '"' :: r =>
    (string? r).map fun (text, r) => (text.elim .unreadable .str, r)
  | s => number? s

/-- The name of a member, the colon after it and white space. -/
def name? (s : List Char) : Option (Option String × List Char) :=
  match s with
  | '"' :: r =>
    match string? r with
    | some (name, r) =>
      match skipSpace r with
      | ':' :: r => some (name, skipSpace r)
      | _ => none
    | none => none
  | _ => none

/-- The brackets of a value. -/
inductive Bracket where
  | array
  | object
deriving DecidableEq

mutual

/-- The text after a value that is not kept, and after the open brackets around it, the
innermost first. -/
def afterValue : Nat → List Bracket → List Char → Option (List Char)
  | 0, _, _ => none
  | steps + 1, brackets, s =>
    match s with
    | '[' :: r =>
      match skipSpace r with
      | ']' :: r => afterClosing steps brackets r
      | r => afterValue steps (.array :: brackets) r
    | '\x7b' :: r =>
      match skipSpace r with
      | '\x7d' :: r => afterClosing steps brackets r
      | r =>
        match name? r with
        | some (_, r) => afterValue steps (.object :: brackets) r
        | none => none
    | s =>
      match scalar? s with
      | some (_, r) => afterClosing steps brackets r
      | none => none

/-- The text after the open brackets, when a value inside them is over. -/
def afterClosing : Nat → List Bracket → List Char → Option (List Char)
  | 0, _, _ => none
  | _ + 1, [], s => some s
  | steps + 1, bracket :: outer, s =>
    match bracket, skipSpace s with
    | .array, ',' :: r => afterValue steps (.array :: outer) (skipSpace r)
    | .array, ']' :: r => afterClosing steps outer r
    | .object, ',' :: r =>
      match name? (skipSpace r) with
      | some (_, r) => afterValue steps (.object :: outer) r
      | none => none
    | .object, '\x7d' :: r => afterClosing steps outer r
    | _, _ => none

end

mutual

/-- A value, after the white space before it. -/
def value : Nat → Nat → List Char → Option (Json × List Char)
  | 0, _, _ => none
  | steps + 1, depth, s =>
    match s with
    | '[' :: r =>
      match depth with
      | 0 => (afterValue (2 * s.length + 2) [] s).map (.unreadable, ·)
      | depth + 1 =>
        match skipSpace r with
        | ']' :: r => some (.arr [], r)
        | r => (itemsTail steps depth [] r).map fun p => (.arr p.1, p.2)
    | '\x7b' :: r =>
      match depth with
      | 0 => (afterValue (2 * s.length + 2) [] s).map (.unreadable, ·)
      | depth + 1 =>
        match skipSpace r with
        | '\x7d' :: r => some (.obj [], r)
        | r => (membersTail steps depth (some []) r).map fun p => (p.1.elim .unreadable .obj, p.2)
    | s => scalar? s

/-- The items of an array from the next one on. Those read so far are kept in reverse. -/
def itemsTail : Nat → Nat → List Json → List Char → Option (List Json × List Char)
  | 0, _, _, _ => none
  | steps + 1, depth, read, s => do
    let (j, r) ← value steps depth s
    match skipSpace r with
    | ',' :: r => itemsTail steps depth (j :: read) (skipSpace r)
    | ']' :: r => some ((j :: read).reverse, r)
    | _ => none

/-- The members of an object from the next one on; none of them where a name has a lone
surrogate. Those read so far are kept in reverse. -/
def membersTail :
    Nat → Nat → Option (List (String × Json)) → List Char →
      Option (Option (List (String × Json)) × List Char)
  | 0, _, _, _ => none
  | steps + 1, depth, read, s => do
    let (name, r) ← name? s
    let (j, r) ← value steps depth r
    let read := (name.bind fun name => read.map ((name, j) :: ·))
    match skipSpace r with
    | ',' :: r => membersTail steps depth read (skipSpace r)
    | '\x7d' :: r => some (read.map List.reverse, r)
    | _ => none

end

/-- Read a text that holds one JSON value. -/
def parseChars? (s : List Char) : Option Json :=
  match value (s.length + 1) depthLimit (skipSpace s) with
  | some (j, r) => if (skipSpace r).isEmpty then some j else none
  | none => none

/-- Read a text that holds one JSON value. -/
def parse? (text : String) : Option Json :=
  parseChars? text.toList

end PaintBench.Json
