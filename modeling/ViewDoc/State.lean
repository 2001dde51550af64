import ViewDoc.Outcome
import ViewDoc.Selector

/-!
State maps, whose values may be dynamic variables.
-/

namespace ViewDoc.State

def resolveEntries (resolveVariable : Value → Outcome Value) : Entries → Outcome Entries
  | [] => return []
  | (name, v) :: rest => do
    let v ← if (← v.wire).isDynamic then resolveVariable v else pure v
    return (name, v) :: (← resolveEntries resolveVariable rest)

/-- An empty state gives an empty map. -/
def resolve (resolveVariable : Value → Outcome Value) (state : Value) : Outcome Value := do
  if !state.truthy then return .map []
  return .map (← resolveEntries resolveVariable (← state.entries "items"))

end ViewDoc.State
