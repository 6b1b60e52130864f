import PaintBench.Decimal.Layout

/-!
# JSON values

`Json` is a JSON value as it stands in a text: the members of an object keep their order,
and a name may occur twice. Free-form values, for which only the last member of a name
counts, are read with `get?` and `at?` and brought into that form by `lastWins`.
-/

namespace PaintBench

/-- A JSON number. A literal without fraction and exponent that fits into 64 bits is a
whole number, every other one a `Float`. -/
inductive Number where
  | whole (n : Int)
  | float (x : Float)

/-- A JSON value. Texts may hold what no value can stand for: numbers beyond every
`Float`, lone surrogates, brackets inside each other without bound. A part of that kind
is `unreadable`, and harmless as long as nobody asks for it. -/
inductive Json where
  | null
  | bool (b : Bool)
  | num (n : Number)
  | str (s : String)
  | arr (items : List Json)
  | obj (members : List (String × Json))
  | unreadable

namespace Number

/-- The number as a `Float`, rounded where it has too many digits. -/
def toFloat : Number → Float
  | whole n => Decimal.ofInt n
  | float x => x

end Number

namespace Json

/-- A list of texts. -/
def ofStrings (texts : List String) : Json :=
  .arr (texts.map .str)

/-- A whole number. -/
def ofNat (n : Nat) : Json :=
  .num (.whole n)

/-- A number; what is not finite is written as null. -/
def ofFloat (x : Float) : Json :=
  if Decimal.isFinite x then .num (.float x) else .null

/-- A value that may be missing; null stands for nothing. -/
def ofOption {α : Type} (write : α → Json) : Option α → Json
  | none => .null
  | some a => write a

/-- The last member of a name. -/
def lastMember (name : String) (members : List (String × Json)) : Option Json :=
  (members.reverse.find? (·.1 == name)).map (·.2)

/-- The member of an object; the last one where the name occurs twice. -/
def get? (name : String) : Json → Option Json
  | obj members => lastMember name members
  | _ => none

/-- The value below the given names, outermost first. -/
def at? : List String → Json → Option Json
  | [], j => some j
  | name :: path, j => (j.get? name).bind (at? path)

/-- The text, if it is one. -/
def str? : Json → Option String
  | str s => some s
  | _ => none

/-- The number as a `Float`, if it is one. -/
def float? : Json → Option Float
  | num n => some n.toFloat
  | _ => none

/-- The members with the earlier ones of a repeated name left out. -/
def dropShadowed : List (String × Json) → List (String × Json)
  | [] => []
  | m :: rest =>
    if rest.any (·.1 == m.1) then dropShadowed rest else m :: dropShadowed rest

mutual

/-- The value with one member for each name, the last one of the text. -/
def lastWins : Json → Json
  | arr items => arr (lastWinsItems items)
  | obj members => obj (dropShadowed (lastWinsMembers members))
  | j => j

def lastWinsItems : List Json → List Json
  | [] => []
  | j :: rest => lastWins j :: lastWinsItems rest

def lastWinsMembers : List (String × Json) → List (String × Json)
  | [] => []
  | (name, j) :: rest => (name, lastWins j) :: lastWinsMembers rest

end

mutual

/-- Whether no part of a value is unreadable. -/
def isReadable : Json → Bool
  | arr items => areReadable items
  | obj members => membersAreReadable members
  | unreadable => false
  | _ => true

def areReadable : List Json → Bool
  | [] => true
  | j :: rest => isReadable j && areReadable rest

def membersAreReadable : List (String × Json) → Bool
  | [] => true
  | (_, j) :: rest => isReadable j && membersAreReadable rest

end

/-- A value of which every part counts, in its free form. -/
def freeForm? (j : Json) : Option Json :=
  if j.isReadable then some j.lastWins else none

end Json

end PaintBench
