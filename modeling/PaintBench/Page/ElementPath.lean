import PaintBench.Json.Decode
import PaintBench.RunError
import PaintBench.Text.Search

/-!
# Element paths

Benchmarks address elements by paths such as `//tbody/tr[1000]/td[2]/a`. A path is the
sequence of its non-empty parts between slashes. A part is a tag, or a tag with an index
in brackets that counts from one; without brackets the index is one. `Segment.readAll`
reads a path, and an `ElementPath` is a text together with what it reads as.
-/

namespace PaintBench

/-- One part of a path: the `index`-th child, if it has the tag. -/
structure Segment where
  tag : String
  index : Nat
deriving DecidableEq, Repr

/-- Why a text is no path. -/
inductive PathFault where
  | unterminatedIndex
  | unreadableIndex (digits : List Char)
  | zeroIndex
  | missingTag
  | empty
deriving DecidableEq, Repr

/-- The wording of a fault. -/
def PathFault.reason : PathFault → String
  | unterminatedIndex => "unterminated index"
  | unreadableIndex digits => "index can't be parsed: " ++ String.ofList digits
  | zeroIndex => "indices start at 1"
  | missingTag => "missing tag name"
  | empty => "empty path"

namespace Segment

/-- The selector of the segment below the node found for the segment before it. -/
def selector (s : Segment) : String :=
  s!"{s.tag}:nth-child({s.index})"

/-- A whole number of 32 bits: digits, with an optional plus sign. -/
def index? (s : List Char) : Option Nat :=
  let digits := match s with
    | '+' :: r => r
    | _ => s
  let n := Decimal.valueOf digits
  if digits.isEmpty || !digits.all Char.isDigit || UInt32.size ≤ n then none else some n

/-- Read one part of a path. -/
def read (part : List Char) : Except PathFault Segment :=
  match Text.splitOnce '[' part with
  | none => .ok ⟨String.ofList part, 1⟩
  | some (tag, rest) =>
    match Text.dropLast? ']' rest with
    | none => .error .unterminatedIndex
    | some digits =>
      match index? (Text.trim digits) with
      | none => .error (.unreadableIndex digits)
      | some 0 => .error .zeroIndex
      | some index => if tag.isEmpty then .error .missingTag else .ok ⟨String.ofList tag, index⟩

/-- Read the parts of a path. -/
def readParts : List (List Char) → Except PathFault (List Segment)
  | [] => .ok []
  | part :: rest => do
    let segment ← read part
    let segments ← readParts rest
    .ok (segment :: segments)

/-- Read a path, which has at least one part. -/
def readAll (s : List Char) : Except PathFault (List Segment) :=
  match (Text.splitOn '/' s).filter (!·.isEmpty) with
  | [] => .error .empty
  | parts => readParts parts

end Segment

/-- A path: its text and the segments that the text reads as. -/
structure ElementPath where
  text : String
  segments : List Segment
  reads : Segment.readAll text.toList = .ok segments
deriving DecidableEq

namespace ElementPath

theorem ext_text {p q : ElementPath} (h : p.text = q.text) : p = q := by
  obtain ⟨s, ps, hp⟩ := p
  obtain ⟨t, qs, hq⟩ := q
  obtain rfl : s = t := h
  obtain rfl : ps = qs := by simpa using hp.symm.trans hq
  rfl

/-- Read a path. -/
def parse (text : String) : Except PathFault ElementPath :=
  match h : Segment.readAll text.toList with
  | .ok segments => .ok ⟨text, segments, h⟩
  | .error fault => .error fault

theorem parse_text (p : ElementPath) : parse p.text = .ok p := by
  have hr := p.reads
  unfold parse
  split
  · next segments h => exact congrArg _ (ext_text rfl)
  · next fault h => simp [hr] at h

/-- The failure of a text that is no path. -/
def invalid (text : String) (fault : PathFault) : RunError :=
  .invalidPath text fault.reason

/-- Read a path, or fail the run. -/
def ofText (text : String) : Except RunError ElementPath :=
  (parse text).mapError (invalid text)

/-- Read a path from its JSON form, which is its text. -/
def decode : Json → Option ElementPath
  | .str s => (parse s).toOption
  | _ => none

/-- The JSON form of a path. -/
def encode (p : ElementPath) : Json :=
  .str p.text

end ElementPath

end PaintBench
