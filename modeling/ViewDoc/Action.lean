import ViewDoc.Outcome
import ViewDoc.Style

/-!
Actions: descriptors that become functions.

The name of a descriptor picks a factory, which the host has registered. Whatever goes wrong on the
way, an action that cannot be made is one that does nothing. A factory is given a resolver for what
follows, a function that its handlers can keep; functions are run by the host, but for those of the
library itself.
-/

namespace ViewDoc

namespace Resolver

/-- The resolver that an engine gives to factories: its own. -/
def ofEngine : Value := .function "parse_dyn_action" true []

/-- The resolver that knows a table of actions and no engine. It has no name of its own. -/
def ofActions : Value := .function "parse_dyn_action" false []

/-- What a resolver chooses as the resolver for factories in turn: an engine's chooses itself, the
other none. All other functions are the host's, which has none with this name that captured
nothing. -/
def passes? : Value → Option (Option Value)
  | .function label named [] =>
    if label = "parse_dyn_action" then some (if named then some ofEngine else none) else none
  | _ => none

end Resolver

structure ActionContext where
  descriptor : Entries
  resolveVariable : Value → Outcome Value
  /-- The resolver for what follows. -/
  resolver : Value
  call : Value → List Value → Outcome Value

namespace ActionContext

/-- The payload of the descriptor, an empty map if there is none. -/
def payload (context : ActionContext) : Value :=
  let v := context.descriptor.get "payload"
  if v.truthy then v else .map []

/-- Resolves an action that follows. -/
def resolveAction (context : ActionContext) (v : Value) : Outcome Value :=
  context.call context.resolver [v]

/-- The action that follows this one, null if there is none. -/
def onSuccess (context : ActionContext) : Value := context.descriptor.get "onSuccess"

end ActionContext

abbrev Factory := ActionContext → Outcome Value

/-- A name can be registered without a factory. -/
abbrev ActionTable := Table (Option Factory)

namespace Action

/-- The function that accepts anything and does nothing. -/
def noop : Value := .function "noop" true []

/-- Whether a function is the one that does nothing: it has that name and captured nothing. -/
def isNoop : Value → Bool
  | .function label named [] => label == "noop" && named
  | _ => false

/-- The factory that a descriptor in plain form names. -/
def factory? (actions : ActionTable) (descriptor : Entries) : Option Factory :=
  (actions.lookup? (descriptor.get "name")).join

def build (factory : Factory) (context : ActionContext) : Outcome Value := do
  let name := (context.descriptor.get "name").quoted
  match ← (factory context).attempt with
  | .error _ => do
    Outcome.log .actions .error ("Action factory for " ++ name ++ " failed, falling back to no-op")
    return noop
  | .ok v =>
    if v.isFunction then return v
    else do
      Outcome.log .actions .debug
        ("Action factory for " ++ name ++ " returned non-callable " ++ v.quoted)
      return noop

/-- The function for a descriptor. If no resolver is chosen for its factory, it is given one for the
same actions. -/
def resolve (actions : ActionTable) (resolveVariable : Value → Outcome Value)
    (call : Value → List Value → Outcome Value) (resolver : Option Value) (v : Value) :
    Outcome Value := do
  match ← v.wire with
  | .map descriptor =>
    match factory? actions descriptor with
    | some factory =>
      build factory ⟨descriptor, resolveVariable, resolver.getD Resolver.ofActions, call⟩
    | none => return noop
  | _ => return noop

end Action

structure CallContext where
  resolveVariable : Value → Outcome Value
  call : Value → List Value → Outcome Value

/-- How the host runs its functions, from their label, what they captured, and the arguments. -/
abbrev Runner := CallContext → String → List Value → List Value → Outcome Value

/-- What it takes to call functions. -/
structure Caller where
  run : Runner
  actions : ActionTable
  resolveVariable : Value → Outcome Value

namespace Caller

/-- Calls a function, whose calls of other functions can nest so deep. -/
def call (m : Caller) : Nat → Value → List Value → Outcome Value
  | depth + 1, .function label named captured, args =>
    if Action.isNoop (.function label named captured) then return .null
    else
      match Resolver.passes? (.function label named captured), args with
      | some resolver, [v] =>
        Action.resolve m.actions m.resolveVariable (m.call depth) resolver v
      | some _, _ => .fail .missingArgument
      | none, _ => m.run ⟨m.resolveVariable, m.call depth⟩ label captured args
  | 0, .function .., _ => .fail .nesting
  | _, _, _ => .fail .notCallable

end Caller
end ViewDoc
