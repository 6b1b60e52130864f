import PaintBench.Json.Basic

/-!
# Decoding JSON values

A decoder takes a JSON value to a value of a type, or refuses it. Decoders convert
nothing: a text is no number, one is not true, and a whole number has to fit.

`Record` is the common form of the values with named fields. A record is an object, whose
unknown members are ignored and whose known members may not be repeated, or the list of
its field values in their order. Fields are then read by name: `required`, `optional`
(null or missing is nothing), `withDefault` and `optionalOrMissing`, the last two for
fields that a list may leave out at its end.
-/

namespace PaintBench.Json

namespace Decode

/-- A text. -/
def text : Json → Option String
  | .str s => some s
  | _ => none

/-- A truth value. -/
def truth : Json → Option Bool
  | .bool b => some b
  | _ => none

/-- A number. -/
def float : Json → Option Float
  | .num n => some n.toFloat
  | _ => none

/-- A whole number from zero up to, not including, the bound. -/
def below (bound : Nat) : Json → Option Nat
  | .num (.whole n) => if 0 ≤ n ∧ n < bound then some n.toNat else none
  | _ => none

/-- A whole number of 16 bits. -/
def uint16 (j : Json) : Option UInt16 :=
  (below UInt16.size j).map UInt16.ofNat

/-- A whole number of 32 bits. -/
def uint32 (j : Json) : Option UInt32 :=
  (below UInt32.size j).map UInt32.ofNat

/-- A whole number of 64 bits. -/
def uint64 (j : Json) : Option UInt64 :=
  (below UInt64.size j).map UInt64.ofNat

/-- Every item of a list. -/
def items {α : Type} (item : Json → Option α) : List Json → Option (List α)
  | [] => some []
  | j :: rest =>
    match item j, items item rest with
    | some a, some as => some (a :: as)
    | _, _ => none

/-- A list. -/
def list {α : Type} (item : Json → Option α) : Json → Option (List α)
  | .arr js => items item js
  | _ => none

/-- A value of which every part counts, also the parts that are not asked for. -/
def entire {α : Type} (item : Json → Option α) (j : Json) : Option α :=
  if j.isReadable then item j else none

/-- A value, or null for nothing. -/
def orNull {α : Type} (item : Json → Option α) : Json → Option (Option α)
  | .null => some none
  | j => (item j).map some

end Decode

/-- How often a name occurs among the members of an object. -/
def countMember (name : String) (members : List (String × Json)) : Nat :=
  members.countP (·.1 == name)

/-- The first member of a name. -/
def findMember (name : String) (members : List (String × Json)) : Option Json :=
  (members.find? (·.1 == name)).map (·.2)

/-- The members of an object, if none of the given names is repeated. -/
def distinctMembers? (fields : List String) : Json → Option (List (String × Json))
  | .obj members =>
    if fields.all fun name => countMember name members ≤ 1 then some members else none
  | _ => none

/-- A value with named fields. -/
structure Record where
  members : List (String × Json)
  /-- whether it was given as the list of its field values -/
  listed : Bool

namespace Record

/-- A record with the given fields, as an object. -/
def ofObject? (fields : List String) (j : Json) : Option Record :=
  (distinctMembers? fields j).map (⟨·, false⟩)

/-- A record with the given fields, as an object or as the list of its field values. -/
def of? (fields : List String) : Json → Option Record
  | .arr values =>
    if values.length ≤ fields.length then some ⟨fields.zip values, true⟩ else none
  | j => ofObject? fields j

variable {α : Type} (r : Record) (name : String) (item : Json → Option α)

/-- A field that has to be there. -/
def required : Option α :=
  (findMember name r.members).bind item

/-- A field whose absence means the default. -/
def withDefault (default : α) : Option α :=
  match findMember name r.members with
  | none => some default
  | some j => item j

/-- A field that may be null, and that an object may leave out. -/
def optional : Option (Option α) :=
  match findMember name r.members with
  | none => if r.listed then none else some none
  | some j => Decode.orNull item j

/-- A field that may be null, and that may be left out. -/
def optionalOrMissing : Option (Option α) :=
  match findMember name r.members with
  | none => some none
  | some j => Decode.orNull item j

end Record

end PaintBench.Json
