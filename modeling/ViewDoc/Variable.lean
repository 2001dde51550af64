import ViewDoc.Accumulator
import ViewDoc.Format
import ViewDoc.Selector

/-!
Dynamic variables: lists of selectors, resolved against the data that their roots name.

Each level gives a body, which is formatted and then taken up by an accumulator. A value that holds
no selector stands for itself; a list that mixes selectors with other things is refused.
-/

namespace ViewDoc

namespace Level

/-- What a level says before it is formatted; `roots` is the data that a root can name. -/
def body (roots level : Entries) : Except Failure Value :=
  let root := level.get "root"
  let default := level.get "default"
  match root.text?.bind fun name => roots.get? name with
  | some tree =>
    if level.contains (.text "keys") then
      (tree.at (level.get "keys") default).map fun found => if found.isNull then default else found
    else .ok (if default.truthy then default else tree)
  | none => .ok (if root.isNull then level.get "keys" else .null)

def concat (a b : Value) : Except Failure Value := do
  return .text ((← a.show?) ++ (← b.show?))

def affix (level : Entries) (v : Value) : Except Failure Value := do
  let before := level.get "prefix"
  let behind := level.get "suffix"
  let v ← if before.truthy then concat before v else pure v
  if behind.truthy then concat v behind else pure v

def convert (c : Clock) (level : Entries) (v : Value) : Outcome Value :=
  let kind := level.get "format"
  if kind.truthy then Format.apply c kind v else return v

/-- Formats a text or number as the level says, and puts its affixes around what is still one. -/
def format (c : Clock) (level : Entries) (v : Value) : Outcome Value := do
  if !v.isTextOrNumber then return v
  let v ← convert c level v
  if !v.isTextOrNumber then return v
  affix level v

/-- The formatted body of a selector in plain form. -/
def said (c : Clock) (roots : Entries) (level : Value) : Outcome Value := do
  let entries ← level.entries "get"
  let v ← body roots entries
  format c entries v

end Level

namespace Variable

/-- Takes up the rest of the levels; `context` is the whole list. -/
def resolveLevels (c : Clock) (roots : Entries) (context : Value) (a : Accumulator) :
    List Value → Outcome Accumulator
  | [] => return a
  | level :: rest => do
    if !level.isSelector then throw (Failure.ofLevel level context)
    let body ← Level.said c roots level
    let a ← a.step body
    resolveLevels c roots context a rest

/-- The levels of a list that holds a selector. -/
def levels? (wire : Value) : Option (List Value) :=
  wire.items?.bind fun levels => if levels.any Value.isSelector then some levels else none

def resolve (c : Clock) (roots : Entries) (v : Value) : Outcome Value := do
  let wire ← v.wire
  match levels? wire with
  | none => return v
  | some levels => do
    let a ← resolveLevels c roots wire .start levels
    a.finish

end Variable
end ViewDoc
