/-!
# Searching and cutting texts

Texts are lists of characters here. `isBlank` is the white space of Unicode: the characters
that carry no ink. `trim` cuts them off both ends of a text, and `isBlankText` holds of a text
that has nothing else. Other classes of characters are lists of ranges of their numbers.

`occursIn` looks for a text inside another one, `splitOn` cuts a text at every separator,
`lines` cuts it into lines, and `replaceChar` puts something else in the place of a character.
-/

namespace PaintBench.Text

/-! ## Characters -/

/-- Whether a number lies in one of the ranges. -/
def inRanges (ranges : List (Nat × Nat)) (n : Nat) : Bool :=
  ranges.any fun r => r.1 ≤ n && n ≤ r.2

/-- The characters with the Unicode property White_Space. -/
def isBlank (c : Char) : Bool :=
  let n := c.toNat
  (9 ≤ n && n ≤ 13) || n == 0x20 || n == 0x85 || n == 0xA0 || n == 0x1680 ||
    (0x2000 ≤ n && n ≤ 0x200A) || n == 0x2028 || n == 0x2029 || n == 0x202F ||
    n == 0x205F || n == 0x3000

/-! ## Blanks -/

/-- The text without its leading blanks. -/
def trimStart (s : List Char) : List Char :=
  s.dropWhile isBlank

/-- The text without the blanks at either end. -/
def trim (s : List Char) : List Char :=
  (trimStart (trimStart s).reverse).reverse

/-- Whether a text has no character but blanks. -/
def isBlankText (s : List Char) : Bool :=
  s.all isBlank

theorem trimStart_eq_nil_iff {s : List Char} : trimStart s = [] ↔ isBlankText s := by
  unfold trimStart isBlankText
  induction s with
  | nil => simp
  | cons c r ih => by_cases h : isBlank c <;> simp [h, ih]

/-! ## Parts of texts -/

/-- Whether `needle` stands somewhere in the text. -/
def occursIn (needle : List Char) : List Char → Bool
  | [] => needle.isEmpty
  | c :: r => needle.isPrefixOf (c :: r) || occursIn needle r

/-- The pieces between the separators, in order; one more than there are separators. -/
def splitOn (separator : Char) : List Char → List (List Char)
  | [] => [[]]
  | c :: r =>
    match splitOn separator r with
    | [] => [[]]
    | piece :: pieces =>
      if c = separator then [] :: piece :: pieces else (c :: piece) :: pieces

/-- The text up to the first separator and the text after it, if there is one. -/
def splitOnce (separator : Char) : List Char → Option (List Char × List Char)
  | [] => none
  | c :: r =>
    if c = separator then some ([], r)
    else (splitOnce separator r).map fun p => (c :: p.1, p.2)

/-- The text without its last character, when that is `c`. -/
def dropLast? (c : Char) (s : List Char) : Option (List Char) :=
  if s.getLast? = some c then some s.dropLast else none

/-- A line without the carriage return that may end it. -/
def chompReturn (line : List Char) : List Char :=
  (dropLast? '\r' line).getD line

/-- The lines of a text. A final line break ends the last line and starts no new one. -/
def lines (s : List Char) : List (List Char) :=
  let pieces := splitOn '\n' s
  pieces.dropLast.map chompReturn ++ (pieces.getLast?.filter (!·.isEmpty)).toList

/-- The first line with its line break, and what follows it. -/
def takeLine : List Char → List Char × List Char
  | [] => ([], [])
  | c :: r => if c = '\n' then ([c], r) else ((takeLine r).map (c :: ·) id)

/-- The text with something else in the place of a character, wherever that stands. -/
def replaceChar (c : Char) (substitute : List Char) (s : List Char) : List Char :=
  s.flatMap fun d => if d = c then substitute else [d]

/-- How many bytes a text takes in UTF-8. -/
def byteCount (s : List Char) : Nat :=
  s.foldl (fun n c => n + c.utf8Size) 0

theorem occursIn_nil (s : List Char) : occursIn [] s = true := by
  cases s <;> simp [occursIn]

theorem splitOn_ne_nil (separator : Char) (s : List Char) : splitOn separator s ≠ [] := by
  cases s with
  | nil => simp [splitOn]
  | cons c r =>
    unfold splitOn
    split
    · simp
    · split <;> simp

/-- Nothing is lost by taking a line. -/
theorem takeLine_append (s : List Char) : (takeLine s).1 ++ (takeLine s).2 = s := by
  induction s with
  | nil => rfl
  | cons c r ih => by_cases h : c = '\n' <;> simp [takeLine, h, ih]

end PaintBench.Text
