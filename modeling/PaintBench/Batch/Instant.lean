import PaintBench.Decimal.Layout
import PaintBench.Text.Search

/-!
# Moments in time

An `Instant` counts seconds from the start of 1970 in universal time, and nanoseconds. A
leap second is the second before it with a thousand million nanoseconds more. Dates are
those of the Gregorian calendar in all years.
-/

namespace PaintBench

/-- A moment in time. -/
structure Instant where
  seconds : Int
  nanoseconds : Nat
deriving DecidableEq, Repr

namespace Instant

/-- The start of 1970. -/
def epoch : Instant := ⟨0, 0⟩

/-! ## Dates -/

/-- A day of the calendar. -/
structure Date where
  year : Int
  month : Nat
  day : Nat
deriving DecidableEq, Repr

/-- The number of a day, counted from the start of 1970. Years are taken to start in
March here, so that a leap day ends its year. -/
def Date.toDays (d : Date) : Int :=
  let year := if d.month ≤ 2 then d.year - 1 else d.year
  let month := (d.month + 9) % 12
  let dayOfYear : Nat := (153 * month + 2) / 5 + d.day - 1
  365 * year + Int.fdiv year 4 - Int.fdiv year 100 + Int.fdiv year 400 + dayOfYear - 719468

/-- The day of a number. -/
def Date.ofDays (days : Int) : Date :=
  let shifted := days + 719468
  let era := Int.fdiv shifted 146097
  let dayOfEra := (Int.fmod shifted 146097).toNat
  let yearOfEra :=
    (dayOfEra - dayOfEra / 1460 + dayOfEra / 36524 - dayOfEra / 146096) / 365
  let dayOfYear := dayOfEra - (365 * yearOfEra + yearOfEra / 4 - yearOfEra / 100)
  let month := (5 * dayOfYear + 2) / 153
  let day := dayOfYear - (153 * month + 2) / 5 + 1
  let year : Int := yearOfEra + era * 400
  if month < 10 then ⟨year, month + 3, day⟩ else ⟨year + 1, month - 9, day⟩

/-- Whether there is such a day. -/
def Date.isValid (d : Date) : Bool :=
  1 ≤ d.month && d.month ≤ 12 && Date.ofDays d.toDays == d

/-! ## Writing -/

/-- A number with at least so many digits. -/
def padded (width n : Nat) : List Char :=
  let digits := Decimal.digitsOf n
  List.replicate (width - digits.length) '0' ++ digits

/-- A year, with its sign unless it has four digits. -/
def yearText (year : Int) : List Char :=
  if 0 ≤ year ∧ year ≤ 9999 then padded 4 year.toNat
  else (if year < 0 then '-' else '+') :: padded 4 year.natAbs

/-- The date of an instant. -/
def date (t : Instant) : Date :=
  Date.ofDays (Int.fdiv t.seconds 86400)

/-- Year, month and day. -/
def dateText (t : Instant) : List Char :=
  let d := t.date
  yearText d.year ++ '-' :: padded 2 d.month ++ '-' :: padded 2 d.day

/-- Hours, minutes and seconds. -/
def timeText (t : Instant) : List Char :=
  let second := (Int.fmod t.seconds 86400).toNat
  padded 2 (second / 3600) ++ ':' :: padded 2 (second / 60 % 60) ++ ':' ::
    padded 2 (second % 60 + t.nanoseconds / 1000000000)

/-- The fraction of a second with three, six or nine digits, as many as it needs. -/
def fractionText (t : Instant) : List Char :=
  let n := t.nanoseconds % 1000000000
  if n = 0 then []
  else if n % 1000000 = 0 then '.' :: padded 3 (n / 1000000)
  else if n % 1000 = 0 then '.' :: padded 6 (n / 1000)
  else '.' :: padded 9 n

/-- The instant in data. -/
def dataText (t : Instant) : String :=
  String.ofList (t.dateText ++ 'T' :: t.timeText ++ t.fractionText ++ ['Z'])

/-- The instant in messages, to the second. -/
def messageText (t : Instant) : String :=
  String.ofList (t.dateText ++ ' ' :: t.timeText) ++ " UTC"

/-! ## Reading -/

/-- A number of exactly so many digits, and the rest. -/
def readDigits (count : Nat) (s : List Char) : Option (Nat × List Char) :=
  let digits := s.take count
  if digits.length = count ∧ digits.all Char.isDigit then
    some (Decimal.valueOf digits, s.drop count)
  else none

/-- The rest after a character. -/
def skip (accepted : Char → Bool) : List Char → Option (List Char)
  | [] => none
  | c :: rest => if accepted c then some rest else none

/-- The nanoseconds of a fraction, of which nine digits count. -/
def readFraction : List Char → Option (Nat × List Char)
  | '.' :: rest =>
    let digits := rest.takeWhile Char.isDigit
    if digits.isEmpty then none
    else
      let kept := digits.take 9
      some (Decimal.valueOf kept * Decimal.powerOfTen (9 - kept.length),
        rest.dropWhile Char.isDigit)
  | s => some (0, s)

/-- The seconds that local time is ahead. -/
def readOffset : List Char → Option Int
  | ['Z'] | ['z'] => some 0
  | sign :: rest => do
    let (hours, rest) ← readDigits 2 rest
    let rest ← skip (· == ':') rest
    let (minutes, rest) ← readDigits 2 rest
    let seconds : Int := hours * 3600 + minutes * 60
    if !rest.isEmpty ∨ 59 < minutes ∨ 86400 ≤ seconds then none
    else if sign = '+' then some seconds
    else if sign = '-' ∨ sign = '−' then some (-seconds)
    else none
  | [] => none

/-- Read an instant: a date, a time with an optional fraction, and an offset. -/
def read? (text : String) : Option Instant := do
  let (year, s) ← readDigits 4 text.toList
  let s ← skip (· == '-') s
  let (month, s) ← readDigits 2 s
  let s ← skip (· == '-') s
  let (day, s) ← readDigits 2 s
  let s ← skip (fun c => c == 'T' || c == 't' || c == ' ') s
  let (hour, s) ← readDigits 2 s
  let s ← skip (· == ':') s
  let (minute, s) ← readDigits 2 s
  let s ← skip (· == ':') s
  let (second, s) ← readDigits 2 s
  let (nanoseconds, s) ← readFraction s
  let offset ← readOffset s
  let date : Date := ⟨year, month, day⟩
  if !date.isValid ∨ 23 < hour ∨ 59 < minute ∨ 60 < second then none
  else
    let leap : Nat := if second = 60 then 1 else 0
    some {
      seconds := date.toDays * 86400 + hour * 3600 + minute * 60 + (second - leap) - offset
      nanoseconds := nanoseconds + leap * 1000000000 }

end Instant

end PaintBench
