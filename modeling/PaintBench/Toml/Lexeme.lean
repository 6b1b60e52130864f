import PaintBench.Json.Parser

/-!
# The words of a configuration file

White space, comments, keys and strings of the TOML format. Every reader takes its word
off the start of the text and leaves the rest; those of strings and keys count down a
bound on their steps, for which the length of the document is enough. Control characters
stand nowhere but in escapes, a tab apart.
-/

namespace PaintBench.Toml

/-- Whether a character may stand in a comment or a string. -/
def isPrintable (c : Char) : Bool :=
  c == '\t' || (0x20 ≤ c.toNat && c.toNat != 0x7F)

/-- The text without the blanks before it. -/
def skipBlanks (s : List Char) : List Char :=
  s.dropWhile fun c => c == ' ' || c == '\t'

/-- The text after a line break. -/
def newline? : List Char → Option (List Char)
  | '\n' :: rest => some rest
  | '\r' :: '\n' :: rest => some rest
  | _ => none

/-- The text without the comment before it. -/
def skipComment : List Char → List Char
  | '#' :: rest => rest.dropWhile isPrintable
  | s => s

/-- The text after the end of a line, which may hold blanks and a comment. -/
def endOfLine? (s : List Char) : Option (List Char) :=
  match skipComment (skipBlanks s) with
  | [] => some []
  | s => newline? s

/-- The text without the blanks, comments and line breaks before it; the flag tells
whether it starts inside a comment. -/
def skipTriviaFrom (comment : Bool) : List Char → List Char
  | [] => []
  | '\n' :: rest => skipTriviaFrom false rest
  | '\r' :: '\n' :: rest => skipTriviaFrom false rest
  | c :: rest =>
    if c == '#' then skipTriviaFrom true rest
    else if c == ' ' || c == '\t' || (comment && isPrintable c) then skipTriviaFrom comment rest
    else c :: rest

/-- The text without the blanks, comments and line breaks before it. -/
def skipTrivia (s : List Char) : List Char :=
  skipTriviaFrom false s

/-! ## Strings -/

/-- A number of hexadecimal digits. -/
def hexDigits? : Nat → Nat → List Char → Option (Nat × List Char)
  | 0, value, s => some (value, s)
  | _ + 1, _, [] => none
  | count + 1, value, c :: rest => do
    let digit ← Json.hexValue? c
    hexDigits? count (value * 16 + digit) rest

/-- The character of a number, if it is one. -/
def scalar? (n : Nat) : Option Char :=
  if n < 0xD800 || (0xE000 ≤ n && n < 0x110000) then some (Char.ofNat n) else none

/-- The character of an escape, after the backslash. -/
def escape? : List Char → Option (Char × List Char)
  | 'b' :: rest => some ('\x08', rest)
  | 't' :: rest => some ('\t', rest)
  | 'n' :: rest => some ('\n', rest)
  | 'f' :: rest => some ('\x0c', rest)
  | 'r' :: rest => some ('\r', rest)
  | '"' :: rest => some ('"', rest)
  | '\\' :: rest => some ('\\', rest)
  | 'u' :: rest => do
    let (n, rest) ← hexDigits? 4 0 rest
    return (← scalar? n, rest)
  | 'U' :: rest => do
    let (n, rest) ← hexDigits? 8 0 rest
    return (← scalar? n, rest)
  | _ => none

/-- The rest of a string on one line, after its opening quote. What was read is kept in
reverse. Escapes count only between double quotes. -/
def lineString? (quote : Char) : Nat → List Char → List Char → Option (String × List Char)
  | 0, _, _ => none
  | _ + 1, _, [] => none
  | steps + 1, read, c :: rest =>
    if c = quote then some (String.ofList read.reverse, rest)
    else if c = '\\' ∧ quote = '"' then do
      let (c, rest) ← escape? rest
      lineString? quote steps (c :: read) rest
    else if isPrintable c then lineString? quote steps (c :: read) rest
    else none

/-- The text without the blanks and line breaks before it. -/
def skipLines : List Char → List Char
  | '\r' :: '\n' :: rest => skipLines rest
  | c :: rest => if c == ' ' || c == '\t' || c == '\n' then skipLines rest else c :: rest
  | [] => []

/-- What follows a backslash at the end of a line: the text from the next word on. -/
def lineJoin? (s : List Char) : Option (List Char) :=
  (newline? (skipBlanks s)).map skipLines

/-- The rest of a string over several lines, after its three opening quotes. One or two
quotes belong to the string, also just before the three that close it. -/
def blockString? (quote : Char) : Nat → List Char → List Char → Option (String × List Char)
  | 0, _, _ => none
  | _ + 1, _, [] => none
  | steps + 1, read, c :: rest =>
    let quotes := (c :: rest).takeWhile (· == quote)
    if quotes.length = 1 ∨ quotes.length = 2 then
      blockString? quote steps (quotes ++ read) ((c :: rest).drop quotes.length)
    else if 3 ≤ quotes.length then
      if quotes.length ≤ 5 then
        some (String.ofList (quotes.drop 3 ++ read).reverse, (c :: rest).drop quotes.length)
      else none
    else if c = '\\' ∧ quote = '"' then
      match lineJoin? rest with
      | some rest => blockString? quote steps read rest
      | none => do
        let (c, rest) ← escape? rest
        blockString? quote steps (c :: read) rest
    else
      match newline? (c :: rest) with
      | some rest => blockString? quote steps ('\n' :: read) rest
      | none => if isPrintable c then blockString? quote steps (c :: read) rest else none

/-- A string over several lines, after its opening quotes; a line break right after them
does not count. -/
def block? (quote : Char) (steps : Nat) (s : List Char) : Option (String × List Char) :=
  blockString? quote steps [] ((newline? s).getD s)

/-- A string, with its quotes. -/
def string? (steps : Nat) : List Char → Option (String × List Char)
  | '"' :: '"' :: '"' :: rest => block? '"' steps rest
  | '\'' :: '\'' :: '\'' :: rest => block? '\'' steps rest
  | '"' :: rest => lineString? '"' steps [] rest
  | '\'' :: rest => lineString? '\'' steps [] rest
  | _ => none

/-! ## Keys -/

/-- Whether a character may stand in a key without quotes. -/
def isBare (c : Char) : Bool :=
  c.isAlphanum || c == '_' || c == '-'

/-- A key without dots. -/
def simpleKey? (steps : Nat) : List Char → Option (String × List Char)
  | '"' :: rest => lineString? '"' steps [] rest
  | '\'' :: rest => lineString? '\'' steps [] rest
  | s =>
    let (name, rest) := s.span isBare
    if name.isEmpty then none else some (String.ofList name, rest)

/-- How deep tables, arrays and keys may go. -/
def depthLimit : Nat := 79

/-- The parts of a key between dots, and the text after the blanks that follow. -/
def keyParts? (steps : Nat) : Nat → List Char → Option (List String × List Char)
  | 0, _ => none
  | parts + 1, s => do
    let (name, rest) ← simpleKey? steps (skipBlanks s)
    match skipBlanks rest with
    | '.' :: rest => do
      let (names, rest) ← keyParts? steps parts rest
      return (name :: names, rest)
    | rest => return ([name], rest)

/-- A key. -/
def key? (steps : Nat) (s : List Char) : Option (List String × List Char) :=
  keyParts? steps depthLimit s

end PaintBench.Toml
