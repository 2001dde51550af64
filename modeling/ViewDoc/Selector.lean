import ViewDoc.Model.Wire

/-!
Selectors, the levels of dynamic variables: a root and a path, with an optional default, format and
affixes.
-/

namespace ViewDoc.Value

/-- A selector is a model of one or a map with a root and keys. -/
def isSelector : Value → Bool
  | .model kind _ _ _ => kind == .selector
  | .map entries => Table.contains entries (.text "root") && Table.contains entries (.text "keys")
  | _ => false

def isDynamic (v : Value) : Bool :=
  match v.items? with
  | some levels => !levels.isEmpty && levels.all isSelector
  | none => false

end ViewDoc.Value
