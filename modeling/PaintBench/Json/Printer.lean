import PaintBench.Json.Basic

/-!
# Writing JSON

`Json.compact` writes a value without any white space, `Json.pretty` with one member or
item a line, indented by two spaces. Quotes, backslashes and control characters are
escaped, so no text written here has a raw line break inside a string.
-/

namespace PaintBench.Json

/-- A digit of a hexadecimal number. -/
def hexDigit (n : Nat) : Char :=
  Nat.digitChar (n % 16)

/-- A character inside a string. -/
def escape (c : Char) : List Char :=
  if c = '"' then ['\\', '"']
  else if c = '\\' then ['\\', '\\']
  else if c = '\n' then ['\\', 'n']
  else if c = '\r' then ['\\', 'r']
  else if c = '\t' then ['\\', 't']
  else if c = '\x08' then ['\\', 'b']
  else if c = '\x0c' then ['\\', 'f']
  else if c.toNat < 0x20 then
    ['\\', 'u', '0', '0', hexDigit (c.toNat / 16), hexDigit c.toNat]
  else [c]

/-- A text in quotes. -/
def quote (s : String) : List Char :=
  '"' :: s.toList.flatMap escape ++ ['"']

/-- A number. -/
def writeNumber : Number → List Char
  | .whole n => Decimal.ofInteger n
  | .float x => Decimal.Layout.data.write x

/-- A truth value. -/
def writeBool (b : Bool) : List Char :=
  if b then "true".toList else "false".toList

mutual

/-- A value without white space. -/
def write : Json → List Char
  | null | unreadable => "null".toList
  | bool b => writeBool b
  | num n => writeNumber n
  | str s => quote s
  | arr [] => ['[', ']']
  | arr (j :: rest) => '[' :: write j ++ writeItems rest
  | obj [] => ['\x7b', '\x7d']
  | obj ((name, j) :: rest) => '\x7b' :: quote name ++ ':' :: write j ++ writeMembers rest

/-- The items after the first one, and the closing bracket. -/
def writeItems : List Json → List Char
  | [] => [']']
  | j :: rest => ',' :: write j ++ writeItems rest

/-- The members after the first one, and the closing brace. -/
def writeMembers : List (String × Json) → List Char
  | [] => ['\x7d']
  | (name, j) :: rest => ',' :: quote name ++ ':' :: write j ++ writeMembers rest

end

/-- The text of a value without white space. -/
def compact (j : Json) : String :=
  String.ofList j.write

/-- A line break and the indentation of a depth. -/
def newline (depth : Nat) : List Char :=
  '\n' :: List.replicate (2 * depth) ' '

mutual

/-- A value with one item or member a line. -/
def writePretty (depth : Nat) : Json → List Char
  | null | unreadable => "null".toList
  | bool b => writeBool b
  | num n => writeNumber n
  | str s => quote s
  | arr [] => ['[', ']']
  | arr (j :: rest) =>
    '[' :: newline (depth + 1) ++ writePretty (depth + 1) j ++ writePrettyItems depth rest
  | obj [] => ['\x7b', '\x7d']
  | obj ((name, j) :: rest) =>
    '\x7b' :: newline (depth + 1) ++ quote name ++ ':' :: ' ' :: writePretty (depth + 1) j ++
      writePrettyMembers depth rest

def writePrettyItems (depth : Nat) : List Json → List Char
  | [] => newline depth ++ [']']
  | j :: rest =>
    ',' :: newline (depth + 1) ++ writePretty (depth + 1) j ++ writePrettyItems depth rest

def writePrettyMembers (depth : Nat) : List (String × Json) → List Char
  | [] => newline depth ++ ['\x7d']
  | (name, j) :: rest =>
    ',' :: newline (depth + 1) ++ quote name ++ ':' :: ' ' :: writePretty (depth + 1) j ++
      writePrettyMembers depth rest

end

/-- The text of a value with one item or member a line. -/
def pretty (j : Json) : String :=
  String.ofList (j.writePretty 0)

end PaintBench.Json
