import WrenDocs.Toml.Value

/-! A table while its document is being read. How a table came to be decides who
may add to it: a header defines a table once, headers further down may pass
through it, and dotted keys only add to tables that dotted keys made. -/
namespace WrenDocs.Toml

/-- How a table came to be. -/
inductive Origin where
  /-- By its own header. -/
  | header
  /-- By a header further down. -/
  | implied
  /-- By a dotted key. -/
  | dotted
  deriving DecidableEq, Repr, Inhabited

/-- What a key of an unfinished table stands for. -/
inductive Draft where
  /-- A value, which nothing adds to. -/
  | value (value : Value)
  | table (origin : Origin) (entries : List (String × Draft))
  /-- The elements of an array of tables; headers add to the last one. -/
  | tables (elements : List (List (String × Draft)))
  deriving Repr, Inhabited

namespace Draft

/-- The entries of an unfinished table. -/
abbrev Entries := List (String × Draft)

mutual

/-- The value that a draft has become. -/
def toValue : Draft → Value
  | value v => v
  | table _ entries => .table (toTable entries)
  | tables elements => .array (toValues elements)

/-- The table that entries have become. -/
def toTable : Entries → Table
  | [] => []
  | (key, draft) :: entries => (key, toValue draft) :: toTable entries

def toValues : List Entries → List Value
  | [] => []
  | entries :: elements => .table (toTable entries) :: toValues elements

end

/-- Changes what a key stands for, or adds the key at the end. Nothing comes of
it where the change is refused. -/
def alter (key : String) (change : Option Draft → Option Draft) : Entries → Option Entries
  | [] => (change none).map fun draft => [(key, draft)]
  | (other, draft) :: entries =>
    if other = key then (change (some draft)).map fun draft => (key, draft) :: entries
    else (alter key change entries).map ((other, draft) :: ·)

/-- Changes the last element of an array of tables. -/
def alterLast (change : Entries → Option Entries) (elements : List Entries) :
    Option (List Entries) := do
  let last ← elements.getLast?
  return elements.dropLast ++ [← change last]

/-- Changes the table that a header path leads to. Tables on the way come to be
where there are none. -/
def inTable (change : Entries → Option Entries) : List String → Entries → Option Entries
  | [], entries => change entries
  | key :: path, entries => alter key (fun
    | none => (inTable change path []).map (table .implied)
    | some (table origin entries) => (inTable change path entries).map (table origin)
    | some (tables elements) => (alterLast (inTable change path) elements).map tables
    | some (value _) => none) entries

/-- Defines a key. A key is defined once. -/
def define (key : String) (draft : Draft) : Entries → Option Entries :=
  alter key fun
    | none => some draft
    | some _ => none

/-- Defines a dotted key. The table right around the last part must have been
made by dotted keys, and no table on the way may have a header of its own. -/
def defineDotted (last : String) (draft : Draft) : List String → Entries → Option Entries
  | [], entries => define last draft entries
  | key :: path, entries => alter key (fun
    | none => (defineDotted last draft path []).map (table .dotted)
    | some (table origin entries) =>
      if origin = .header ∨ (path = [] ∧ origin ≠ .dotted) then none
      else (defineDotted last draft path entries).map (table origin)
    | some (tables elements) =>
      if path = [] then none
      else (alterLast (defineDotted last draft path) elements).map tables
    | some (value _) => none) entries

/-- Defines a table by its header. A table that other headers have implied gets
its own header now. -/
def defineTable (key : String) : Entries → Option Entries :=
  alter key fun
    | none => some (table .header [])
    | some (table .implied entries) => some (table .header entries)
    | some _ => none

/-- Adds an element to an array of tables. -/
def defineElement (key : String) : Entries → Option Entries :=
  alter key fun
    | none => some (tables [[]])
    | some (tables elements) => some (tables (elements ++ [[]]))
    | some _ => none

end Draft

end WrenDocs.Toml
