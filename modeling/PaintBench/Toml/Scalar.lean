import PaintBench.Toml.Lexeme

/-!
# Numbers, dates and truth values

The values of the TOML format that are no strings, arrays or tables. Digits may be
parted by single underscores. Whole numbers have 64 bits with a sign; a number too large
for a `Float` is refused unless it is negative. A date or a time is kept as its text.
-/

namespace PaintBench.Toml

/-- Digits with single underscores between them, and the rest. -/
def digitRun (accepted : Char → Bool) : List Char → List Char × List Char
  | [] => ([], [])
  | '_' :: c :: rest =>
    if accepted c then ((digitRun accepted rest).map (c :: ·) id) else ([], '_' :: c :: rest)
  | c :: rest =>
    if accepted c then ((digitRun accepted rest).map (c :: ·) id) else ([], c :: rest)

/-- Digits of which the first one stands before any underscore. -/
def digits? (accepted : Char → Bool) (s : List Char) : Option (List Char × List Char) :=
  match s with
  | [] => none
  | c :: _ => if accepted c then some (digitRun accepted s) else none

/-- An optional sign: whether it is a minus. -/
def sign : List Char → Bool × List Char
  | '-' :: rest => (true, rest)
  | '+' :: rest => (false, rest)
  | s => (false, s)

/-- The digits of a decimal number, which start with zero only for zero itself. -/
def wholeDigits? : List Char → Option (List Char × List Char)
  | '0' :: rest => some (['0'], rest)
  | s => digits? Char.isDigit s

/-- A whole number, if it has 64 bits. -/
def whole? (n : Int) : Option Json :=
  if Int64.minValue.toInt ≤ n ∧ n ≤ Int64.maxValue.toInt then some (.num (.whole n)) else none

/-- The value of digits in a base. -/
def valueIn (base : Nat) (digits : List Char) : Nat :=
  digits.foldl (fun n c => n * base + (Json.hexValue? c).getD 0) 0

/-- Whether a character is a digit of a base. -/
def isDigitOf (base : Nat) (c : Char) : Bool :=
  (Json.hexValue? c).any (· < base)

/-- A whole number in another base, after its mark. -/
def based? (base : Nat) (s : List Char) : Option (Json × List Char) := do
  let (ds, rest) ← digits? (isDigitOf base) s
  return (← whole? (valueIn base ds), rest)

/-- A whole number. -/
def integer? : List Char → Option (Json × List Char)
  | '0' :: 'x' :: rest => based? 16 rest
  | '0' :: 'o' :: rest => based? 8 rest
  | '0' :: 'b' :: rest => based? 2 rest
  | s => do
    let (negative, s) := sign s
    let (ds, rest) ← wholeDigits? s
    let n : Int := Decimal.valueOf ds
    return (← whole? (if negative then -n else n), rest)

/-- The digits after a decimal point. -/
def fraction? : List Char → Option (List Char × List Char)
  | '.' :: rest => digits? Char.isDigit rest
  | _ => none

/-- An exponent. -/
def exponent? : List Char → Option (Int × List Char)
  | 'e' :: rest | 'E' :: rest => do
    let (negative, rest) := sign rest
    let (ds, rest) ← digits? Char.isDigit rest
    let n : Int := Decimal.valueOf ds
    return (if negative then -n else n, rest)
  | _ => none

/-- The closest number to a decimal, unless that is infinite and positive. -/
def decimal? (negative : Bool) (whole fraction : List Char) (exponent : Int) :
    Option Json :=
  let x := Decimal.ofDecimal negative (Decimal.valueOf (whole ++ fraction))
    (exponent - fraction.length)
  if negative || Decimal.isFinite x then some (.num (.float x)) else none

/-- A number with a fraction, an exponent or both. -/
def decimalNumber? (s : List Char) : Option (Json × List Char) := do
  let (negative, s) := sign s
  let (whole, s) ← wholeDigits? s
  match fraction? s with
  | some (fraction, rest) =>
    match exponent? rest with
    | some (e, rest) => return (← decimal? negative whole fraction e, rest)
    | none => return (← decimal? negative whole fraction 0, rest)
  | none =>
    let (e, rest) ← exponent? s
    return (← decimal? negative whole [] e, rest)

/-- What is not finite, by name. -/
def notFinite? (s : List Char) : Option (Json × List Char) :=
  let (negative, s) := sign s
  match s with
  | 'i' :: 'n' :: 'f' :: rest =>
    some (.num (.float (if negative then -1 / 0 else 1 / 0)), rest)
  | 'n' :: 'a' :: 'n' :: rest => some (.num (.float (0 / 0)), rest)
  | _ => none

/-! ## Dates and times -/

/-- Two digits that stand for a number in a range. -/
def twoDigits? (least greatest : Nat) : List Char → Option (Nat × List Char)
  | a :: b :: rest =>
    let n := Decimal.valueOf [a, b]
    if a.isDigit && b.isDigit && least ≤ n && n ≤ greatest then some (n, rest) else none
  | _ => none

/-- The text after a character. -/
def after? (c : Char) : List Char → Option (List Char)
  | [] => none
  | d :: rest => if c = d then some rest else none

/-- How many days a month has. -/
def daysIn (year month : Nat) : Nat :=
  if month = 2 then
    if year % 4 = 0 ∧ (year % 100 ≠ 0 ∨ year % 400 = 0) then 29 else 28
  else if month ∈ [4, 6, 9, 11] then 30
  else 31

/-- The text after a date. -/
def date? (s : List Char) : Option (List Char) := do
  let (century, s) ← twoDigits? 0 99 s
  let (rest, s) ← twoDigits? 0 99 s
  let s ← after? '-' s
  let (month, s) ← twoDigits? 1 12 s
  let s ← after? '-' s
  let (_, s) ← twoDigits? 1 (daysIn (century * 100 + rest) month) s
  return s

/-- The text after a fraction of a second, if there is one. -/
def secondFraction? : List Char → Option (List Char)
  | '.' :: rest =>
    let after := rest.dropWhile Char.isDigit
    if after.length = rest.length then none else some after
  | s => some s

/-- The text after a time of day. -/
def time? (s : List Char) : Option (List Char) := do
  let (_, s) ← twoDigits? 0 23 s
  let s ← after? ':' s
  let (_, s) ← twoDigits? 0 59 s
  let s ← after? ':' s
  let (_, s) ← twoDigits? 0 60 s
  secondFraction? s

/-- The text after an offset from universal time, if there is one. -/
def offset? : List Char → Option (List Char)
  | 'Z' :: rest | 'z' :: rest => some rest
  | '+' :: rest | '-' :: rest => do
    let (_, s) ← twoDigits? 0 23 rest
    let s ← after? ':' s
    let (_, s) ← twoDigits? 0 59 s
    return s
  | s => some s

/-- The text after a date, a time, or both. -/
def moment? (s : List Char) : Option (List Char) :=
  match date? s with
  | none => time? s
  | some rest =>
    match rest with
    | [] => some []
    | c :: following =>
      if c = 'T' ∨ c = 't' ∨ c = ' ' then
        match time? following with
        | some rest => offset? rest
        | none => some rest
      else some rest

/-- A date or a time, as an object of its own. -/
def datetime? (s : List Char) : Option (Json × List Char) :=
  (moment? s).map fun rest =>
    (.obj [("datetime", .str (String.ofList (s.take (s.length - rest.length))))], rest)

/-- A value that is no string, array or table. -/
def scalar : List Char → Option (Json × List Char)
  | 't' :: 'r' :: 'u' :: 'e' :: rest => some (.bool true, rest)
  | 'f' :: 'a' :: 'l' :: 's' :: 'e' :: rest => some (.bool false, rest)
  | s => (datetime? s).or ((decimalNumber? s).or ((notFinite? s).or (integer? s)))

end PaintBench.Toml
