import ViewDoc.Path
import ViewDoc.Selector

/-!
Dynamic styles: maps from style properties to selectors.

A selector starts from its default, or from itself if it has none. When its root names a category of
styles, the property comes from the category that this start names or, looked up by root, from the
root's own. Entries that are no selectors do not take part.
-/

namespace ViewDoc

/-- The entry under a value; one that cannot be a key finds nothing. -/
def Table.lookup? {β : Type} (t : Table β) (key : Value) : Option β :=
  if key.isHashable then t.find? key else none

namespace Style

/-- The value of a property, from its selector in plain form. -/
def property (styles : Entries) (byRoot : Bool) (selector : Entries) : Except Failure Value :=
  let default := selector.get "default"
  let start := if default.isNull then .map selector else default
  let keys := selector.get "keys"
  match (selector.get "root").text?.bind fun name => styles.get? name with
  | none => .ok start
  | some category =>
    if byRoot then
      (category.at keys default).map fun found => if found.isNull then default else found
    else ((styles.lookup? start).getD .null).at keys .null

/-- What an entry gives: the property of its name if its value is a selector, else nothing. -/
def resolveEntry (styles : Entries) (byRoot : Bool) (e : Value × Value) :
    Except Failure Entries := do
  let wire ← e.2.wire
  match wire with
  | .map selector =>
    if wire.isSelector then return [(e.1, ← property styles byRoot selector)] else return []
  | _ => return []

def resolveEntries (styles : Entries) (byRoot : Bool) (entries : Entries) :
    Except Failure Entries := do
  return (← entries.mapM (resolveEntry styles byRoot)).flatten

def resolve (styles : Entries) (byRoot : Bool) (v : Value) : Except Failure Entries := do
  match ← v.wire with
  | .map entries => resolveEntries styles byRoot entries
  | _ => return []

end Style
end ViewDoc
