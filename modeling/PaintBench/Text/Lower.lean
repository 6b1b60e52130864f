import PaintBench.Text.CaseTable
import PaintBench.Text.Search

/-!
# Lower case

`lower` is the lower-case form of a text by the rules of Unicode. Two characters are
special: a capital I with a dot becomes an i and a combining dot, and a capital sigma
becomes a final sigma where it ends a word, that is, when a cased letter stands before it
and none after it, marks and modifiers not counted.
-/

namespace PaintBench.Text

/-- Whether a character is passed over when the context of a letter is looked at. -/
def isIgnorable (c : Char) : Bool :=
  inRanges ignorableRanges c.toNat

/-- Whether a character is a letter with case. -/
def isCased (c : Char) : Bool :=
  inRanges casedRanges c.toNat

/-- The lower-case form of a single character that has one of one character. -/
def lowerChar (c : Char) : Char :=
  let n := c.toNat
  match lowerRanges.find? fun (first, last, _, _) => first ≤ n && n ≤ last with
  | some (first, _, step, shift) =>
    if (n - first) % step = 0 then Char.ofNat (n + shift).toNat else c
  | none => c

/-- Whether the first character that counts is cased. -/
def startsCased (s : List Char) : Bool :=
  match s.dropWhile isIgnorable with
  | c :: _ => isCased c
  | [] => false

/-- The lower-case form of the rest of a text, given what stands before it in reverse. -/
def lowerFrom (before : List Char) : List Char → List Char
  | [] => []
  | c :: r =>
    let here :=
      if c = 'Σ' then [if startsCased before && !startsCased r then 'ς' else 'σ']
      else if c = 'İ' then ['i', Char.ofNat 0x307]
      else [lowerChar c]
    here ++ lowerFrom (c :: before) r

/-- The lower-case form of a text. -/
def lower (s : List Char) : List Char :=
  lowerFrom [] s

end PaintBench.Text
