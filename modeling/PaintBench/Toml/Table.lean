import PaintBench.Json.Basic

/-!
# Tables under construction

The lines of a TOML document fill a tree of tables. A table may come into being in three
ways: by a header of its own, because the header of a table below names it, or because a
dotted key names it. A table has at most one header, dotted keys extend only the tables
that dotted keys made, and nothing is defined twice.
-/

namespace PaintBench.Toml

/-- How a table came into being. -/
inductive Origin where
  /-- by a header of its own -/
  | header
  /-- by the header of a table below it -/
  | implied
  /-- by a dotted key -/
  | dotted
deriving DecidableEq, Repr

/-- What stands under a key. -/
inductive Item where
  | value (j : Json)
  | table (origin : Origin) (entries : List (String × Item))
  /-- tables that share a header, in order -/
  | tables (elements : List Item)

/-- The keys of a table, in order. -/
abbrev Entries := List (String × Item)

mutual

/-- The finished value of an item. -/
def Item.toJson : Item → Json
  | value j => j
  | table _ entries => .obj (Item.membersOf entries)
  | tables elements => .arr (Item.itemsOf elements)

def Item.membersOf : List (String × Item) → List (String × Json)
  | [] => []
  | (key, item) :: rest => (key, item.toJson) :: Item.membersOf rest

def Item.itemsOf : List Item → List Json
  | [] => []
  | item :: rest => item.toJson :: Item.itemsOf rest

end

namespace Entries

/-- Put something under a key, in the place of what is there. -/
def put (key : String) (item : Item) : Entries → Entries
  | [] => [(key, item)]
  | (k, i) :: rest => if k = key then (k, item) :: rest else (k, i) :: put key item rest

/-- Change the last of some tables. -/
def changeLast (change : Entries → Option Entries) : List Item → Option (List Item)
  | [] => none
  | [.table origin entries] => (change entries).map fun entries => [.table origin entries]
  | item :: rest => (changeLast change rest).map (item :: ·)

/-- Change the table at a path; a missing one comes into being in the given way. Where
tables share a header, the last one counts. -/
def changeAt (origin : Origin) (change : Entries → Option Entries) :
    List String → Entries → Option Entries
  | [], entries => change entries
  | key :: path, entries =>
    match entries.lookup key with
    | none => (changeAt origin change path []).map fun new => put key (.table origin new) entries
    | some (.value _) => none
    | some (.table made inner) =>
      if origin = .dotted ∧ made = .header then none
      else (changeAt origin change path inner).map fun new => put key (.table made new) entries
    | some (.tables elements) =>
      (changeLast (changeAt origin change path) elements).map fun new =>
        put key (.tables new) entries

/-- Add a key that is not there yet. -/
def add (key : String) (item : Item) (entries : Entries) : Option Entries :=
  if (entries.lookup key).isSome then none else some (entries ++ [(key, item)])

/-- Whether dotted keys may put a key into the table at a path: there is none yet, or a
dotted key made it. -/
def mayExtend : List String → Entries → Bool
  | [], _ => true
  | key :: path, entries =>
    match entries.lookup key with
    | none => true
    | some (.table made inner) => if path.isEmpty then made = .dotted else mayExtend path inner
    | some (.tables elements) =>
      match elements.getLast?, path with
      | some (.table _ inner), _ :: _ => mayExtend path inner
      | _, _ => false
    | some (.value _) => false

/-- Put a value under a key, given as the path to its table and its last part. -/
def define (path : List String) (key : String) (j : Json) (entries : Entries) :
    Option Entries :=
  if mayExtend path entries then changeAt .dotted (add key (.value j)) path entries else none

/-- Start the table of a header. -/
def openTable (key : String) (entries : Entries) : Option Entries :=
  match entries.lookup key with
  | none => some (entries ++ [(key, .table .header [])])
  | some (.table .implied inner) => some (put key (.table .header inner) entries)
  | some _ => none

/-- Start another of the tables that share a header. -/
def openElement (key : String) (entries : Entries) : Option Entries :=
  match entries.lookup key with
  | none => some (entries ++ [(key, .tables [.table .header []])])
  | some (.tables elements) =>
    some (put key (.tables (elements ++ [.table .header []])) entries)
  | some _ => none

end Entries

end PaintBench.Toml
