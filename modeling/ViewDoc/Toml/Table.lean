import ViewDoc.Toml.Lexical
import ViewDoc.Value.Table

/-!
Tables of TOML texts under construction.

A key of several parts leads through tables, which are made on the way. Some tables are closed: one
that has been declared is not declared again, and a value written in one piece is not added to.
-/

namespace ViewDoc.Toml

def invalid {α : Type} : Except Fault α := .error .invalid

/-- Applies a change to the table at the end of a path. In a list of tables, when `lists` allows it,
the path goes on in the last one. -/
def alter (lists : Bool) (change : Entries → Except Fault Entries) :
    List String → Entries → Except Fault Entries
  | [], table => change table
  | name :: path, table =>
    match table.get? name with
    | none => (alter lists change path []).map fun t => table.insert (.text name) (.map t)
    | some (.map inner) =>
      (alter lists change path inner).map fun t => table.insert (.text name) (.map t)
    | some (.list items) =>
      match lists, items.getLast? with
      | true, some (.map inner) => (alter lists change path inner).map fun t =>
          table.insert (.text name) (.list (items.dropLast ++ [.map t]))
      | _, _ => invalid
    | some _ => invalid

def addNew (name : String) (v : Value) (table : Entries) : Except Fault Entries :=
  if table.contains (.text name) then invalid else .ok (table.insert (.text name) v)

/-- Adds an empty table to a list of tables, which it may begin. -/
def appendTable (name : String) (table : Entries) : Except Fault Entries :=
  match table.get? name with
  | none => .ok (table.insert (.text name) (.list [.map []]))
  | some (.list items) => .ok (table.insert (.text name) (.list (items ++ [.map []])))
  | some _ => invalid

def addAt (lists : Bool) (path : List String) (v : Value) (table : Entries) :
    Except Fault Entries :=
  alter lists (addNew (path.getLastD "") v) path.dropLast table

/-- Whether a value is written in one piece from several parts. -/
def isCompound : Value → Bool
  | .list _ | .map _ => true
  | _ => false

/-- Whether a path is in a closed region. -/
def isFrozen (frozen : List (List String)) (path : List String) : Bool :=
  frozen.any (·.isPrefixOf path)

structure Draft where
  table : Entries
  /-- The table that entries go to. -/
  header : List String
  /-- Tables that are not to be declared any more. -/
  declared : List (List String)
  /-- Tables that will be so from the next declaration on. -/
  pending : List (List String)
  /-- Values that nothing is added to. -/
  frozen : List (List String)

namespace Draft

def empty : Draft := ⟨[], [], [], [], []⟩

def settle (d : Draft) : Draft := { d with declared := d.pending ++ d.declared, pending := [] }

/-- `[path]`. -/
def declareTable (d : Draft) (path : List String) : Except Fault Draft := do
  let d := d.settle
  if d.declared.contains path || isFrozen d.frozen path then invalid
  else
    let table ← alter true .ok path d.table
    return { d with table, header := path, declared := path :: d.declared }

/-- `[[path]]`; what lies below the path can be declared anew. -/
def declareListItem (d : Draft) (path : List String) : Except Fault Draft := do
  let d := d.settle
  if isFrozen d.frozen path then invalid
  else
    let below (p : List String) : Bool := path.isPrefixOf p
    let table ← alter true (appendTable (path.getLastD "")) path.dropLast d.table
    return { d with
      table, header := path
      declared := path :: d.declared.filter (!below ·)
      frozen := d.frozen.filter (!below ·) }

/-- `path = value`. The tables that the path leads through must not have been declared. -/
def addEntry (d : Draft) (path : List String) (v : Value) : Except Fault Draft := do
  let through := (List.range (path.length - 1)).map fun i => d.header ++ path.take (i + 1)
  if through.any d.declared.contains then invalid
  else if isFrozen d.frozen (d.header ++ path.dropLast) then invalid
  else
    let table ← addAt true (d.header ++ path) v d.table
    let frozen := if isCompound v then (d.header ++ path) :: d.frozen else d.frozen
    return { d with table, frozen, pending := through ++ d.pending }

end Draft
end ViewDoc.Toml
