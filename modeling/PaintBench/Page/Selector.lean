import PaintBench.Page.ElementPath

/-!
# Selectors

Paths and ids reach the page as selectors: `tag:nth-child(n)` for one part of a path, and
`[id="…"]` for an id, with quotes and backslashes inside it escaped. `Selector.read?`
reads both forms.
-/

namespace PaintBench

/-- What a selector looks for. -/
inductive Selector where
  | withId (id : String)
  /-- the `index`-th child of its parent, if it has the tag -/
  | nthChild (tag : String) (index : Nat)
deriving DecidableEq, Repr

namespace Selector

/-- The selector of an id. Its backslashes are escaped first, and then its quotes. -/
def ofId (id : String) : String :=
  let slashesEscaped := Text.replaceChar '\\' ['\\', '\\'] id.toList
  "[id=\"" ++ String.ofList (Text.replaceChar '"' ['\\', '"'] slashesEscaped) ++ "\"]"

/-- The characters up to the closing quote, where a backslash takes the next character
as it is, and what follows the quote. -/
def readQuoted : List Char → Option (List Char × List Char)
  | [] => none
  | '"' :: rest => some ([], rest)
  | ['\\'] => none
  | '\\' :: c :: rest => (readQuoted rest).map fun (id, rest) => (c :: id, rest)
  | c :: rest => (readQuoted rest).map fun (id, rest) => (c :: id, rest)

/-- The text before the last occurrence of a separator and the text after it. -/
def splitLast (separator : List Char) : List Char → Option (List Char × List Char)
  | [] => none
  | c :: rest =>
    match splitLast separator rest with
    | some (before, after) => some (c :: before, after)
    | none =>
      if separator.isPrefixOf (c :: rest) then some ([], (c :: rest).drop separator.length)
      else none

/-- Read a selector for a child. -/
def readNthChild (s : List Char) : Option Selector := do
  let (tag, rest) ← splitLast ":nth-child(".toList s
  let digits ← Text.dropLast? ')' rest
  let index ← Segment.index? digits
  some (.nthChild (String.ofList tag) index)

/-- Read a selector. -/
def read? (text : String) : Option Selector :=
  let start := "[id=\"".toList
  let s := text.toList
  if start.isPrefixOf s then
    match readQuoted (s.drop start.length) with
    | some (id, [']']) => some (.withId (String.ofList id))
    | _ => none
  else readNthChild s

end Selector

end PaintBench
