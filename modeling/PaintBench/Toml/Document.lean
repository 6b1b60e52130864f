import PaintBench.Toml.Scalar
import PaintBench.Toml.Table

/-!
# Reading TOML

`Toml.parse?` reads a configuration text into a tree of values. A text is a sequence of
lines: headers of tables, and keys with values, which go into the table of the header
before them. Arrays may run over several lines, and everything else is on one. Every
reader counts down a bound on its steps, for which the length of the text is enough.
-/

namespace PaintBench.Toml

mutual

/-- A value, and the text after it. -/
def value : Nat → Nat → List Char → Option (Json × List Char)
  | 0, _, _ => none
  | steps + 1, depth, s =>
    match s with
    | '"' :: _ | '\'' :: _ => (string? steps s).map fun p => (.str p.1, p.2)
    | '[' :: rest =>
      match depth with
      | 0 => none
      | depth + 1 =>
        (itemsTail steps depth [] (skipTrivia rest)).map fun p => (.arr p.1, p.2)
    | '\x7b' :: rest =>
      match depth with
      | 0 => none
      | depth + 1 =>
        match skipBlanks rest with
        | '\x7d' :: rest => some (.obj [], rest)
        | rest => (pairsTail steps depth [] rest).map fun p => (.obj (Item.membersOf p.1), p.2)
    | s => scalar s

/-- The items of an array from the next one on, or its end. Those read so far are kept in
reverse. -/
def itemsTail : Nat → Nat → List Json → List Char → Option (List Json × List Char)
  | 0, _, _, _ => none
  | steps + 1, depth, read, s =>
    match s with
    | ']' :: rest => some (read.reverse, rest)
    | s => do
      let (j, rest) ← value steps depth s
      match skipTrivia rest with
      | ',' :: rest => itemsTail steps depth (j :: read) (skipTrivia rest)
      | ']' :: rest => some ((j :: read).reverse, rest)
      | _ => none

/-- The pairs of a table in braces from the next one on. -/
def pairsTail : Nat → Nat → Entries → List Char → Option (Entries × List Char)
  | 0, _, _, _ => none
  | steps + 1, depth, entries, s => do
    let (path, rest) ← key? steps s
    let rest ← after? '=' rest
    let (j, rest) ← value steps depth (skipBlanks rest)
    let entries ← entries.define path.dropLast (path.getLast?.getD "") j
    match skipBlanks rest with
    | ',' :: rest => pairsTail steps depth entries rest
    | '\x7d' :: rest => some (entries, rest)
    | _ => none

end

/-- A key with its value, put into the table at a path. -/
def pair? (steps : Nat) (header : List String) (document : Entries) (s : List Char) :
    Option (Entries × List Char) := do
  let (path, rest) ← key? steps s
  let rest ← after? '=' rest
  let (j, rest) ← value steps depthLimit (skipBlanks rest)
  let document ← document.changeAt .implied
    (·.define path.dropLast (path.getLast?.getD "") j) header
  return (document, rest)

/-- The key between the brackets of a header. -/
def header? (steps : Nat) (s : List Char) : Option (List String × List Char) := do
  let (path, rest) ← key? steps s
  return (path, ← after? ']' rest)

/-- Read the lines of a document. The header is the path of the table that takes keys. -/
def lines : Nat → List String → Entries → List Char → Option Entries
  | 0, _, _, _ => none
  | steps + 1, header, document, s =>
    match skipBlanks s with
    | [] => some document
    | '#' :: rest => do lines steps header document (← endOfLine? ('#' :: rest))
    | '[' :: '[' :: rest => do
      let (path, rest) ← header? steps rest
      let rest ← after? ']' rest
      let document ←
        document.changeAt .implied (·.openElement (path.getLast?.getD "")) path.dropLast
      lines steps path document (← endOfLine? rest)
    | '[' :: rest => do
      let (path, rest) ← header? steps rest
      let document ←
        document.changeAt .implied (·.openTable (path.getLast?.getD "")) path.dropLast
      lines steps path document (← endOfLine? rest)
    | s =>
      match newline? s with
      | some rest => lines steps header document rest
      | none => do
        let (document, rest) ← pair? steps header document s
        lines steps header document (← endOfLine? rest)

/-- The text without a byte order mark. -/
def skipMark : List Char → List Char
  | c :: rest => if c.toNat = 0xFEFF then rest else c :: rest
  | [] => []

/-- Read a document. -/
def parse? (text : String) : Option Json :=
  let s := skipMark text.toList
  (lines (s.length + 1) [] [] s).map fun document => .obj (Item.membersOf document)

end PaintBench.Toml
