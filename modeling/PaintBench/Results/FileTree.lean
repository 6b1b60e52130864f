/-!
# Trees of files

A `FileTree` is a text file, or a directory of named trees. A place in a tree is the list
of names that leads to it from the top. `find?` gives what stands at a place and `put`
changes it: what was put somewhere is found there (`find?_put`).
-/

namespace PaintBench

/-- A place in a tree: the names from the top down. -/
abbrev Place := List String

/-- A file or a directory. -/
inductive FileTree where
  | file (content : String)
  | directory (entries : List (String × FileTree))

namespace FileTree

/-- A directory without entries. -/
def empty : FileTree := directory []

/-- The entries of a directory; a file has none. -/
def entries : FileTree → List (String × FileTree)
  | file _ => []
  | directory es => es

/-- The entry of a name. -/
def lookup (name : String) : List (String × FileTree) → Option FileTree
  | [] => none
  | (other, t) :: rest => if other = name then some t else lookup name rest

/-- The entries with a tree under a name, in place of what had that name. -/
def withEntry (name : String) (t : FileTree) :
    List (String × FileTree) → List (String × FileTree)
  | [] => [(name, t)]
  | (other, u) :: rest =>
    if other = name then (name, t) :: rest else (other, u) :: withEntry name t rest

/-- What stands at a place. -/
def find? : Place → FileTree → Option FileTree
  | [], t => some t
  | name :: rest, t => (lookup name t.entries).bind (find? rest)

/-- The tree with something put at a place, below directories that are made where they
are missing. -/
def put (new : FileTree) : Place → FileTree → FileTree
  | [], _ => new
  | name :: rest, t =>
    directory (withEntry name (put new rest ((lookup name t.entries).getD empty)) t.entries)

theorem lookup_withEntry (name other : String) (t : FileTree)
    (es : List (String × FileTree)) :
    lookup other (withEntry name t es) = if name = other then some t else lookup other es := by
  induction es with
  | nil => simp [withEntry, lookup]
  | cons e rest ih =>
    obtain ⟨first, u⟩ := e
    by_cases h : first = name
    · subst h
      by_cases h' : first = other <;> simp [withEntry, lookup, h']
    · by_cases h' : first = other
      · subst h'
        simp [withEntry, lookup, h, Ne.symm h]
      · simp [withEntry, lookup, h, h', ih]

theorem find?_put (new : FileTree) (place : Place) (t : FileTree) :
    find? place (put new place t) = some new := by
  induction place generalizing t with
  | nil => rfl
  | cons name rest ih => simp [put, find?, entries, lookup_withEntry, ih]

mutual

/-- All files by their place. -/
def files : FileTree → List (Place × String)
  | file content => [([], content)]
  | directory es => filesOfEntries es

def filesOfEntries : List (String × FileTree) → List (Place × String)
  | [] => []
  | (name, t) :: rest =>
    (files t).map (fun (place, content) => (name :: place, content)) ++ filesOfEntries rest

end

end FileTree

end PaintBench
