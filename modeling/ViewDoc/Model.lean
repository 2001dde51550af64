import ViewDoc.Failure

/-!
Models: selectors, action descriptors and component nodes as validated descriptors.

A model is made from a map whose declared fields have to follow their rules; all problems are
reported, in the order of the declared fields. A map can hold a field under its key or under its
name, and the key goes first. Fields that are not declared are kept, except on selectors.
-/

namespace ViewDoc

namespace Model

inductive Rule where
  | any
  | text
  | optionalText
  /-- The name of a format, or null. -/
  | format
  /-- A map whose keys are texts, or null. -/
  | optionalMap
  | model (kind : ModelKind) (nullable : Bool)
  /-- A list of component nodes, or null. -/
  | optionalNodes

structure Field where
  name : String
  /-- How documents write the field. -/
  key : String
  rule : Rule
  required : Bool

def selectorFields : List Field := [
  ⟨"root", "root", .optionalText, true⟩, ⟨"keys", "keys", .any, true⟩,
  ⟨"default", "default", .any, false⟩, ⟨"prefix", "prefix", .optionalText, false⟩,
  ⟨"suffix", "suffix", .optionalText, false⟩, ⟨"format", "format", .format, false⟩]

def actionFields : List Field := [
  ⟨"name", "name", .text, true⟩, ⟨"payload", "payload", .optionalMap, false⟩,
  ⟨"on_success", "onSuccess", .model .action true, false⟩]

def nodeFields : List Field := [
  ⟨"type", "type", .text, true⟩, ⟨"style", "style", .optionalMap, false⟩,
  ⟨"children", "children", .optionalNodes, false⟩]

def declared : ModelKind → List Field
  | .selector => selectorFields
  | .action => actionFields
  | .node => nodeFields

/-- Whether fields that are not declared are kept. -/
def isOpen (kind : ModelKind) : Bool := kind != .selector

def formatNames : List String := ["time", "timeago", "toInt", "toString"]

/-- The key under which a map holds a field. -/
def Field.keyIn? (f : Field) (entries : Entries) : Option String :=
  if entries.contains (.text f.key) then some f.key
  else if entries.contains (.text f.name) then some f.name
  else none

/-- The fields that a map holds, each under the key it is written with. -/
def supplied (kind : ModelKind) (entries : Entries) : List (String × Field) :=
  (declared kind).filterMap fun f => (f.keyIn? entries).map (·, f)

abbrev Checked (α : Type) := Except (List Problem) α

def problem {α : Type} (kind : String) : Checked α := .error [⟨[], kind⟩]

def stepText : Value → String
  | .text s | .markup s => s
  | .int n => Text.whole n
  | .bool b => if b then "1" else "0"
  | v => v.quoted

/-- Joins two checks and the problems of both. -/
def Checked.both {α β : Type} (a : Checked α) (b : Checked β) : Checked (α × β) :=
  match a, b with
  | .ok x, .ok y => .ok (x, y)
  | .error ps, .error qs => .error (ps ++ qs)
  | .error ps, .ok _ => .error ps
  | .ok _, .error qs => .error qs

def Checked.within {α : Type} (steps : List String) (a : Checked α) : Checked α :=
  a.mapError (·.map fun p => { p with path := steps ++ p.path })

def checkKeys : Entries → Checked Entries
  | [] => .ok []
  | (k, v) :: rest =>
    let key : Checked Value :=
      match k.text? with
      | some s => .ok (.text s)
      | none => .error [⟨[stepText k, "[key]"], "string_type"⟩]
    (Checked.both key (checkKeys rest)).map fun (key, rest) => (key, v) :: rest

/-- The entries of a map that no declared field has used; their keys have to be texts. -/
def extras (used : List String) : Entries → Checked Entries
  | [] => .ok []
  | (k, v) :: rest =>
    match k.text? with
    | some s =>
      if used.contains s then extras used rest
      else (extras used rest).map ((.text s, v) :: ·)
    | none => Checked.both (.error [⟨[stepText k], "invalid_key"⟩]) (extras used rest) |>.map fun
        ((), rest) => rest

/-- The declared fields in order, from what was found under their keys. -/
def collect (found : List (String × Checked Value)) (keyOf : Field → Option String) :
    List Field → Checked (List (String × Option Value))
  | [] => .ok []
  | f :: rest =>
    let here : Checked (Option Value) :=
      match keyOf f with
      | none => if f.required then .error [⟨[f.key], "missing"⟩] else .ok none
      | some key =>
        match found.find? (·.1 = key) with
        | some (_, checked) => (Checked.within [key] checked).map some
        | none => .ok none
    (Checked.both here (collect found keyOf rest)).map fun (v, rest) => (f.name, v) :: rest

/-- The model with these fields, null where nothing is given. -/
def ofFields (kind : ModelKind) (fields : List (String × Option Value)) (extra : Entries) : Value :=
  .model kind (fields.map fun (name, v) => (.text name, v.getD .null))
    ((fields.filter (·.2.isSome)).map (·.1)) extra

def assemble (kind : ModelKind) (entries : Entries) (found : List (String × Checked Value)) :
    Checked Value :=
  let used := (supplied kind entries).map (·.1)
  let extra := if isOpen kind then extras used entries else .ok []
  (Checked.both (collect found (·.keyIn? entries) (declared kind)) extra).map fun
    (fields, extra) => ofFields kind fields extra

/-- How deep models can stand inside each other, when they are made and when they are written. -/
def nestingLimit : Nat := 255

/-- What is wrong with a value that is neither a map nor a model, where a model has to be. -/
def refusal : Nat → String
  | 0 => "recursion_depth_exceeded"
  | _ + 1 => "model_type"

/-- A model in the place of a list is gone through in pairs of a name and a field, and no pair is a
model. -/
def refusePairs {α : Type} (room pairs : Nat) : Checked α :=
  .error ((List.range pairs).map fun i => ⟨[Text.whole (i : Nat)], refusal room⟩)

mutual

/-- Checks a value by a rule; `room` models can stand inside each other. -/
def check : Nat → Rule → Value → Checked Value
  | _, .any, v => .ok v
  | _, .text, .text s | _, .text, .markup s => .ok (.text s)
  | _, .text, _ => problem "string_type"
  | _, .optionalText, .null => .ok .null
  | _, .optionalText, .text s | _, .optionalText, .markup s => .ok (.text s)
  | _, .optionalText, _ => problem "string_type"
  | _, .format, .null => .ok .null
  | _, .format, .text s | _, .format, .markup s =>
    if formatNames.contains s then .ok (.text s) else problem "literal_error"
  | _, .format, _ => problem "literal_error"
  | _, .optionalMap, .null => .ok .null
  | _, .optionalMap, .map entries => (checkKeys entries).map .map
  | _, .optionalMap, _ => problem "dict_type"
  | _, .model _ true, .null => .ok .null
  | 0, .model _ _, _ => problem (refusal 0)
  | room + 1, .model kind _, .map entries =>
    assemble kind entries (checkEntries room (supplied kind entries) entries)
  | room + 1, .model kind _, .model k fields given extra =>
    if k = kind then .ok (.model k fields given extra) else problem (refusal (room + 1))
  | room + 1, .model _ _, _ => problem (refusal (room + 1))
  | _, .optionalNodes, .null => .ok .null
  | room, .optionalNodes, .list items | room, .optionalNodes, .tuple items =>
    (checkItems room 0 items).map .list
  | room, .optionalNodes, .model kind _ _ extra =>
    refusePairs room ((declared kind).length + extra.length)
  | _, .optionalNodes, _ => problem "list_type"

def checkEntries (room : Nat) (used : List (String × Field)) :
    List (Value × Value) → List (String × Checked Value)
  | [] => []
  | (k, v) :: rest =>
    match k.text?.bind fun s => used.find? (·.1 = s) with
    | some (key, field) => (key, check room field.rule v) :: checkEntries room used rest
    | none => checkEntries room used rest

/-- Checks component nodes, the first of which has the position `i`. -/
def checkItems (room i : Nat) : List Value → Checked (List Value)
  | [] => .ok []
  | v :: rest =>
    (Checked.both (Checked.within [Text.whole i] (check room (.model .node false) v))
      (checkItems room (i + 1) rest)).map fun (v, rest) => v :: rest

end

def validate (kind : ModelKind) (v : Value) : Except Failure Value :=
  (check nestingLimit (.model kind false) v).mapError .invalidModel

/-- Models cannot be changed; names that begin with an underscore are no fields. -/
def assign (name : String) : Except Failure Unit :=
  if name.startsWith "_" then .ok () else .error (.invalidModel [⟨[name], "frozen_instance"⟩])

/-- Names that are taken beside the value of a literal. -/
def literalNames : List String := ["cls", "value", "root", "keys"]

/-- The selector whose value is the given one itself, with other named fields beside it. -/
def literal (v : Value) (more : Entries) : Except Failure Value :=
  if more.any fun e => e.1.text?.elim true literalNames.contains then .error .repeatedField
  else validate .selector (.map ([(.text "root", .null), (.text "keys", v)] ++ more))

end Model
end ViewDoc
