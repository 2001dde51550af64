import ViewDoc.Component

/-!
Registries: the four tables that an engine resolves against.

Merging adds entries and overwrites those that are there; nothing is ever removed. The tables are
merged one after the other, and component entries are checked last; what was merged before something
is refused stays.
-/

namespace ViewDoc

structure Registries where
  /-- The data that the roots of selectors name. -/
  roots : Entries
  styles : Entries
  actions : ActionTable
  components : ComponentTable

/-- What is merged into registries. Data and styles are maps, or pairs in a list. -/
structure Additions where
  roots : Value
  styles : Value
  actions : ActionTable
  components : ComponentTable

def Additions.none : Additions := ⟨.null, .null, [], []⟩

namespace Registries

def empty : Registries := ⟨[], [], [], []⟩

/-- Checks entries in order, up to the first that is refused. -/
def coerceAll (asTransform : Value → Transform) : ComponentTable → Except Failure ComponentTable
  | [] => .ok []
  | (name, spec) :: rest => do
    let entry ← ComponentEntry.coerce asTransform spec
    return (name, .entry entry) :: (← coerceAll asTransform rest)

def isInitialized (r : Registries) : Bool := !r.components.isEmpty

def sizesText (r : Registries) : String :=
  "Registries merged: " ++ Text.whole r.roots.length ++ " variables, " ++
    Text.whole r.styles.length ++ " styles, " ++ Text.whole r.actions.length ++ " actions, " ++
    Text.whole r.components.length ++ " components"

/-- Adds to a table of data; what is empty adds nothing. -/
def addData (t : Entries) (v : Value) : Entries × Except Failure Unit :=
  if v.truthy then Entries.add t v else (t, .ok ())

def mergeData (r : Registries) (roots styles : Value) : Except Failure Unit × Registries :=
  match addData r.roots roots with
  | (roots, .error e) => (.error e, { r with roots })
  | (roots, .ok ()) =>
    let (styles, done) := addData r.styles styles
    (done, { r with roots, styles })

def mergeHost (asTransform : Value → Transform) (r : Registries) (actions : ActionTable)
    (components : ComponentTable) : Except Failure Unit × Registries :=
  let r := { r with actions := r.actions.update actions }
  match coerceAll asTransform components with
  | .error e => (.error e, r)
  | .ok components => (.ok (), { r with components := r.components.update components })

def merge (asTransform : Value → Transform) (r : Registries) (more : Additions) :
    Outcome Unit × Registries :=
  match r.mergeData more.roots more.styles with
  | (.error e, r) => (.fail e, r)
  | (.ok (), r) =>
    match r.mergeHost asTransform more.actions more.components with
    | (.error e, r) => (.fail e, r)
    | (.ok (), r) => (Outcome.log .registries .debug r.sizesText, r)

/-- Sets an item of a list; negative positions count from its end. -/
def setItem (items : List Value) (key v : Value) : Except Failure Value :=
  match key.whole?, key with
  | some n, .int _ | some n, .bool _ =>
    let i := if n < 0 then n + items.length else n
    if 0 ≤ i ∧ i < items.length then .ok (.list (items.set i.toNat v)) else .error .outsideItems
  | _, _ => .error .notAssignable

def assign (data key v : Value) : Except Failure Value :=
  match data with
  | .map entries =>
    if key.isHashable then .ok (.map (Table.insert entries key v)) else .error .unhashable
  | .list items => setItem items key v
  | _ => .error .notAssignable

def poke (r : Registries) (root key v : Value) : Except Failure Registries :=
  match r.roots.lookup? root with
  | none => .error (if root.isHashable then .absentKey else .unhashable)
  | some data => (assign data key v).map fun data =>
      { r with roots := r.roots.insert root data }

end Registries
end ViewDoc
