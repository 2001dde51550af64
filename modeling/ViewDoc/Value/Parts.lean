import ViewDoc.Failure

/-!
The parts of values that can be walked through, and tables filled from pairs of parts.

A table takes up pairs one after the other and keeps those that came before one that is refused.
-/

namespace ViewDoc

namespace Value

/-- Whether a value of the host or a model has a part of its own under a name. -/
def hasPart (name : String) : Value → Bool
  | object _ attributes _ => Table.contains attributes (.text name)
  | model _ fields _ extra =>
    Table.contains fields (.text name) || Table.contains extra (.text name)
  | _ => false

/-- The items, characters, keys, or the fields of a model in pairs. -/
def parts? : Value → Option (List Value)
  | list items | tuple items => some items
  | text s | markup s => some (s.toList.map fun c => .text (String.singleton c))
  | map entries => some (Table.keys entries)
  | model kind fields _ extra =>
    some ((if kind = .selector then fields else fields ++ extra).map fun e => .tuple [e.1, e.2])
  | _ => none

/-- The entries of a map; nothing else has any. A part of its own under the name by which they are
asked for stands in the way. -/
def entries (asked : String) (v : Value) : Except Failure Entries :=
  match v.entries? with
  | some entries => .ok entries
  | none => .error (if v.hasPart asked then .notCallable else .noEntries)

end Value

namespace Entries

/-- What a key holds, null if it is absent; a value that cannot be a key is refused. -/
def atKey (t : Entries) (key : Value) : Except Failure Value :=
  if key.isHashable then .ok ((t.find? key).getD .null) else .error .unhashable

/-- Adds pairs of a key and a value, up to the first that is none. -/
def addPairs (t : Entries) : List Value → Entries × Except Failure Unit
  | [] => (t, .ok ())
  | pair :: rest =>
    match pair.parts? with
    | none => (t, .error .notPairs)
    | some [key, v] =>
      if key.isHashable then addPairs (t.insert key v) rest else (t, .error .unhashable)
    | some _ => (t, .error .badPair)

/-- Adds the entries of a map, or the pairs of parts of another value. A part `keys` of its own
hides the others. -/
def add (t : Entries) : Value → Entries × Except Failure Unit
  | .map more => (t.update more, .ok ())
  | v =>
    match v.parts? with
    | some pairs => if v.hasPart "keys" then (t, .error .notPairs) else addPairs t pairs
    | none => (t, .error .notPairs)

/-- The entries of a map, or of the pairs in a value. -/
def ofValue : Value → Except Failure Entries
  | .map entries => .ok entries
  | v =>
    let (t, done) := add [] v
    done.map fun _ => t

end Entries
end ViewDoc
