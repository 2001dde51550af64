import ViewDoc.Model
import ViewDoc.Value.Parts

/-!
The plain form of models.

It holds the fields that were given, declared ones first, and plain forms of the models inside them.
Only so many things can stand inside each other while a model is written: a value of free form that
would be one too many is left as it is, and with a declared model that would be, writing fails.
-/

namespace ViewDoc

/-- Whether models of a kind can stand inside models of the same kind, so that each takes up room
of its own. -/
def ModelKind.nests (kind : ModelKind) : Bool := kind != .selector

/-- The room that a model leaves for what it holds. -/
def ModelKind.roomInside (kind : ModelKind) (room : Nat) : Nat :=
  if kind.nests then room - 1 else room

namespace Model

/-- The key of a declared field. -/
def keyOf (kind : ModelKind) (name : String) : String :=
  ((declared kind).find? (·.name = name)).elim name (·.key)

/-- How many levels of a field take up no room, since they are declared: a map, a model, or a list
and the models in it. -/
def Rule.depth : Rule → Nat
  | .optionalMap | .model .. => 1
  | .optionalNodes => 2
  | _ => 0

def depthOf (kind : ModelKind) (name : String) : Nat :=
  ((declared kind).find? (·.name = name)).elim 0 (·.rule.depth)

mutual

/-- The plain form of a value with the models and rendered nodes in it, as far as there is room;
`keyed` tells whether the fields of models are written under their keys or under their names. -/
def dump (keyed : Bool) : Nat → Value → Value
  | room + 1, .list items => .list (dumpAll keyed room items)
  | room + 1, .tuple items => .tuple (dumpAll keyed room items)
  | room + 1, .map entries => .map (dumpEntries keyed room entries)
  | room + 1, .model kind fields given extra =>
    .map (Table.ofList (dumpFields keyed kind given (kind.roomInside room) fields ++
      dumpEntries keyed (kind.roomInside room) extra))
  | room + 1, .rendered element props children =>
    .map [(.text "element", dump keyed room element), (.text "props", dump keyed room props),
      (.text "children", dump keyed room children)]
  | _, v => v

def dumpAll (keyed : Bool) (room : Nat) : List Value → List Value
  | [] => []
  | v :: vs => dump keyed room v :: dumpAll keyed room vs

def dumpEntries (keyed : Bool) (room : Nat) : List (Value × Value) → List (Value × Value)
  | [] => []
  | (k, v) :: rest => (k, dump keyed room v) :: dumpEntries keyed room rest

def dumpFields (keyed : Bool) (kind : ModelKind) (given : List String) (room : Nat) :
    List (Value × Value) → List (Value × Value)
  | [] => []
  | (k, v) :: rest =>
    let name := k.text?.getD ""
    if given.contains name then
      (.text (if keyed then keyOf kind name else name), dump keyed (room + depthOf kind name) v) ::
        dumpFields keyed kind given room rest
    else dumpFields keyed kind given room rest

end

mutual

/-- Whether writing a value comes to a model with a property, which can depend on its kind, on the
fields it was given and on the room that there is for it. -/
def meets (p : ModelKind → List String → Nat → Bool) : Nat → Value → Bool
  | room + 1, .list items | room + 1, .tuple items => meetsAny p room items
  | room + 1, .map entries => meetsEntry p room entries
  | room + 1, .model kind fields given extra =>
    p kind given room || meetsField p kind given (kind.roomInside room) fields ||
      meetsEntry p (kind.roomInside room) extra
  | room + 1, .rendered element props children =>
    meets p room element || meets p room props || meets p room children
  | _, _ => false

def meetsAny (p : ModelKind → List String → Nat → Bool) (room : Nat) : List Value → Bool
  | [] => false
  | v :: vs => meets p room v || meetsAny p room vs

def meetsEntry (p : ModelKind → List String → Nat → Bool) (room : Nat) :
    List (Value × Value) → Bool
  | [] => false
  | (_, v) :: rest => meets p room v || meetsEntry p room rest

def meetsField (p : ModelKind → List String → Nat → Bool) (kind : ModelKind)
    (given : List String) (room : Nat) : List (Value × Value) → Bool
  | [] => false
  | (k, v) :: rest =>
    let name := k.text?.getD ""
    given.contains name && meets p (room + depthOf kind name) v ||
      meetsField p kind given room rest

end

/-- Whether a model that takes up room comes when there is none. -/
def overruns : Nat → Value → Bool := meets fun kind _ room => kind.nests && room == 0

/-- The plain form of a model, which itself stands inside nothing. -/
def plain (keyed : Bool) (m : Value) : Except Failure Value :=
  if overruns (nestingLimit + 1) m then .error .tooDeep
  else .ok (dump keyed (nestingLimit + 1) m)

/-- The plain form of a model; selectors write fields inside them under their own names. -/
def toWire : Value → Except Failure Value
  | .model kind fields given extra => plain (kind != .selector) (.model kind fields given extra)
  | _ => .error .noEntries

/-- The plain forms of the models that are the parts of a value. -/
def dynamicVariable (levels : Value) : Except Failure Value :=
  match levels.parts? with
  | some parts => (parts.mapM toWire).map .list
  | none => .error .notPairs

end Model

mutual

/-- The plain form of a model, or of the models in a list; a list without models stays as it is. -/
def Value.wire : Value → Except Failure Value
  | .model kind fields given extra => Model.plain true (.model kind fields given extra)
  | .list items =>
    if items.any Value.isModel then (Value.wireAll items).map .list else .ok (.list items)
  | .tuple items =>
    if items.any Value.isModel then (Value.wireAll items).map .list else .ok (.tuple items)
  | v => .ok v

def Value.wireAll : List Value → Except Failure (List Value)
  | [] => .ok []
  | v :: vs => do
    let w ← v.wire
    return w :: (← Value.wireAll vs)

end

end ViewDoc
