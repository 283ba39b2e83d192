import Conformance.Value

/-!
# Tables of a configuration file

A configuration file is put together statement by statement.  Which statements may add to a table
depends on how the table came about, so each one remembers that.
-/

namespace Conformance
namespace Toml

/-- How a table came about. -/
inductive TableKind where
  /-- It has a header or braces of its own. -/
  | explicit
  /-- It was only named on the way to another one. -/
  | implied
  /-- It was named in front of a dot in a key. -/
  | dotted
deriving DecidableEq, Inhabited, Repr

/-- What stands under a name. -/
inductive Item where
  /-- A finished value. -/
  | value (value : Value)
  /-- A table that may still grow. -/
  | table (kind : TableKind) (entries : List (String × Item))
  /-- A list of tables, the last one of which may still grow. -/
  | tables (elements : List (List (String × Item)))
deriving Inhabited

mutual

/-- The value that an item has become. -/
def Item.toValue : Item → Value
  | .value value => value
  | .table _ entries => .table (entryValues entries)
  | .tables elements => .array (elementValues elements)

/-- The values of the entries of a table. -/
def entryValues : List (String × Item) → List (String × Value)
  | [] => []
  | (name, item) :: rest => (name, item.toValue) :: entryValues rest

/-- The values of the elements of a list of tables. -/
def elementValues : List (List (String × Item)) → List Value
  | [] => []
  | entries :: rest => .table (entryValues entries) :: elementValues rest

end

/-- The entries of a table. -/
abbrev Entries := List (String × Item)

/-- Puts an item under a name, in place or as the last entry. -/
def Entries.put (entries : Entries) (name : String) (item : Item) : Entries :=
  if entries.any fun (key, _) => key == name then
    entries.map fun (key, earlier) => if key == name then (key, item) else (key, earlier)
  else entries ++ [(name, item)]

/-- Changes the table that a path leads to, by way of tables that are made if they are missing and
of the last elements of lists.  `viaDots` tells whether the path is that of a key with dots: such a
path makes dotted tables and goes through no table with a header. -/
def changeAt?
    (viaDots : Bool)
    (change : TableKind → Entries → Option Entries) :
    List String → TableKind → Entries → Option Entries
  | [], kind, entries => change kind entries
  | name :: path, _, entries =>
      match entries.lookup name with
      | none => do
          let kind := if viaDots then TableKind.dotted else TableKind.implied
          let inner ← changeAt? viaDots change path kind []
          return entries.put name (.table kind inner)
      | some (.value _) => none
      | some (.table kind inner) => do
          if viaDots && kind == .explicit then none
          else
            let changed ← changeAt? viaDots change path kind inner
            return entries.put name (.table kind changed)
      | some (.tables elements) => do
          let changed ← changeAt? viaDots change path .explicit (elements.getLastD [])
          return entries.put name (.tables (elements.dropLast ++ [changed]))

/-- Adds a value under a key with the given parts before its last dot.  A key with dots adds only
to tables that were made by such keys, and no name gets two values. -/
def assign?
    (path : List String)
    (name : String)
    (value : Value)
    (kind : TableKind)
    (entries : Entries) :
    Option Entries :=
  changeAt? true (fun kind entries =>
    if (kind == .dotted) == path.isEmpty || entries.any fun (key, _) => key == name then none
    else some (entries.put name (.value value))) path kind entries

/-- Opens a table under a name: a new one, or one that was only implied so far. -/
def openTable? (name : String) (entries : Entries) : Option Entries :=
  match entries.lookup name with
  | none => some (entries.put name (.table .explicit []))
  | some (.table .implied inner) => some (entries.put name (.table .explicit inner))
  | some _ => none

/-- Adds an empty table to the list of tables under a name. -/
def openElement? (name : String) (entries : Entries) : Option Entries :=
  match entries.lookup name with
  | none => some (entries.put name (.tables [[]]))
  | some (.tables elements) => some (entries.put name (.tables (elements ++ [[]])))
  | some _ => none

/-- A statement of a configuration file. -/
inductive Statement where
  /-- The header of a table. -/
  | table (path : List String) (name : String)
  /-- The header of an element in a list of tables. -/
  | element (path : List String) (name : String)
  /-- A value for a key. -/
  | assign (path : List String) (name : String) (value : Value)
deriving Inhabited

/-- A configuration file that is put together. -/
structure Building where
  /-- The entries outside all tables. -/
  root : Entries := []
  /-- The table that the last header opened. -/
  current : List String := []
deriving Inhabited

namespace Building

/-- Continues with a statement. -/
def step? (building : Building) : Statement → Option Building
  | .table path name => do
      let root ← changeAt? false (fun _ => openTable? name) path .explicit building.root
      return { root := root, current := path ++ [name] }
  | .element path name => do
      let root ← changeAt? false (fun _ => openElement? name) path .explicit building.root
      return { root := root, current := path ++ [name] }
  | .assign path name value => do
      let root ← changeAt? false (assign? path name value) building.current .explicit building.root
      return { building with root := root }

end Building

/-- The table that the statements of a file describe. -/
def ofStatements? (statements : List Statement) : Option Value := do
  let building ← statements.foldlM Building.step? {}
  return .table (entryValues building.root)

/-- The table in braces with the given keys and values. -/
def ofAssignments? (assignments : List (List String × String × Value)) : Option Value := do
  let entries ← assignments.foldlM
    (fun entries (path, name, value) => assign? path name value .explicit entries) []
  return .table (entryValues entries)

end Toml
end Conformance
