import ViewDoc.Value.Parts
import ViewDoc.Value.Text

/-!
Rendered nodes: an element of the host with its final props, and the nodes inside it.

Rendering gives nodes whose props are a map and which stand in every place among the children. Trees
that are put together by hand can hold other props, and leave places empty.
-/

namespace ViewDoc

/-- Without a list of children, the props may carry text content. -/
structure Node where
  element : Value
  props : Value
  children : Option (List (Option Node))

namespace Node

mutual

def toValue : Node → Value
  | ⟨element, props, none⟩ => .rendered element props .null
  | ⟨element, props, some children⟩ => .rendered element props (.list (toValues children))

def toValues : List (Option Node) → List Value
  | [] => []
  | none :: rest => .null :: toValues rest
  | some n :: rest => n.toValue :: toValues rest

end

/-- The name of a function, or its quoted form if it has none; other values are left alone. -/
def describeValue : Value → Value
  | .function label true _ => .text label
  | .function label false captured => .text (Value.quoted (.function label false captured))
  | v => v

def describeEntries (props : Entries) : Entries := props.map fun e => (e.1, describeValue e.2)

def plainMap (element : Value) (props : Entries) (children : Value) : Value :=
  .map [(.text "element", describeValue element), (.text "props", .map (describeEntries props)),
    (.text "children", children)]

mutual

/-- The tree as plain maps, functions shown by name. -/
def describe : Node → Except Failure Value
  | ⟨element, props, none⟩ => do return plainMap element (← props.entries "items") .null
  | ⟨element, props, some children⟩ => do
    let entries ← props.entries "items"
    return plainMap element entries (.list (← describeAll children))

/-- An empty place cannot be described. -/
def describeAll : List (Option Node) → Except Failure (List Value)
  | [] => .ok []
  | none :: _ => .error .noEntries
  | some n :: rest => do
    let here ← n.describe
    return here :: (← describeAll rest)

end

/-- The value of a prop, null if the props do not hold it. -/
def prop (n : Node) (name : Value) : Except Failure Value := do
  (← n.props.entries "get").atKey name

/-- The identity of a node among its siblings. -/
def key (n : Node) : Except Failure Value := n.prop (.text "key")

end Node
end ViewDoc
