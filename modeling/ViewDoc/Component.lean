import ViewDoc.Action
import ViewDoc.Node
import ViewDoc.Value.Parts

/-!
Components: what the host registers for a type of component nodes.

An entry is an element and a transform from the props of a node to its final ones. Entries can also
be given as maps, and tables may hold entries that are refused only when they are used.
-/

namespace ViewDoc

structure Services where
  resolveVariable : Value → Outcome Value
  resolveStyle : Value → Outcome Value
  resolveAction : Value → Outcome Value
  call : Value → List Value → Outcome Value
  render : Value → Value → Outcome (Option Node)

structure TransformContext where
  props : Entries
  component : Entries
  services : Services

/-- What a transform returns: props of its own, or any value that may hold them. -/
inductive Transformed where
  | props (v : Value)
  | value (v : Value)

abbrev Transform := TransformContext → Outcome Transformed

def Transform.identity : Transform := fun _ => return .props (.map [])

structure ComponentEntry where
  element : Value
  transform : Transform

inductive ComponentSpec where
  | entry (e : ComponentEntry)
  /-- A map that may leave out the transform. -/
  | mapping (element : Value) (transform : Option Transform)
  /-- Any other value: null for nothing, or a map of plain values. -/
  | value (v : Value)

abbrev ComponentTable := Table ComponentSpec

/-- The props that a transform has parsed; a map holds them under one of two names. -/
def Transformed.parsedProps : Transformed → Except Failure Entries
  | .props v => Entries.ofValue v
  | .value (.map entries) =>
    let v := (Table.get? entries "parsed_props").getD (Entries.get entries "parsedProps")
    if v.truthy then Entries.ofValue v else .ok []
  | .value _ => .ok []

namespace ComponentEntry

/-- The entry that a registration stands for; `asTransform` is how the host uses a plain value as a
transform. -/
def coerce (asTransform : Value → Transform) : ComponentSpec → Except Failure ComponentEntry
  | .entry e => .ok e
  | .mapping element transform => .ok ⟨element, transform.getD Transform.identity⟩
  | .value (.map entries) =>
    let transform := Entries.get entries "transform"
    .ok ⟨Entries.get entries "element",
      if transform.truthy then asTransform transform else Transform.identity⟩
  | .value v => .error (if v.isQuotable then .notComponentEntry v else .tooManyDigits)

end ComponentEntry
end ViewDoc
