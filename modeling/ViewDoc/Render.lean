import ViewDoc.Component
import ViewDoc.Model.Weight

/-!
Rendering: component descriptions become trees of nodes.

The type of a component picks an entry. Its own props, the resolved style, the props of the entry's
transform and the key are laid over each other in this order. Children are rendered in turn under
their positions; what is not registered renders nothing and leaves no node.
-/

namespace ViewDoc

structure Renderer where
  components : ComponentTable
  asTransform : Value → Transform
  resolveVariable : Value → Outcome Value
  resolveStyle : Value → Outcome Value
  resolveAction : Value → Outcome Value
  call : Value → List Value → Outcome Value

namespace Renderer

def reservedNames : List String := ["type", "style", "children"]

/-- The entry for a type; null stands for no entry. -/
def entryOf? (r : Renderer) (type : Value) : Except Failure (Option ComponentEntry) :=
  match r.components.lookup? type with
  | none | some (.value .null) => .ok none
  | some spec => (ComponentEntry.coerce r.asTransform spec).map some

/-- The props that a component itself carries. -/
def ownProps (component : Entries) : Entries :=
  component.filter fun e => !reservedNames.any fun name => e.1.equal (.text name)

/-- The style of a component, unless it has none. -/
def style? (r : Renderer) (component : Entries) : Outcome (Option Value) :=
  let style := component.get "style"
  if style.isNull then return none else do return some (← r.resolveStyle style)

def mergeProps (own : Entries) (style : Option Value) (parsed : Entries) (key : Value) : Entries :=
  let styled := style.elim own fun s => Table.insert own (.text "style") s
  Table.insert (Table.update styled parsed) (.text "key") key

/-- What the transform of a component is given; `nested` renders for it. -/
def context (r : Renderer) (nested : Value → Value → Outcome (Option Node)) (component : Entries) :
    TransformContext :=
  ⟨ownProps component, component,
    ⟨r.resolveVariable, r.resolveStyle, r.resolveAction, r.call, nested⟩⟩

/-- The final props of a component, once its style is resolved and its transform has run. -/
def finalProps (r : Renderer) (nested : Value → Value → Outcome (Option Node))
    (component : Entries) (entry : ComponentEntry) (key : Value) : Outcome Entries := do
  let style ← r.style? component
  let transformed ← entry.transform (r.context nested component)
  let parsed ← transformed.parsedProps
  return mergeProps (ownProps component) style parsed key

/-- The items of the children, if they are a list. -/
def childrenOf (component : Entries) : Option (List Value) := (component.get "children").items?

theorem weight_get_le (component : Entries) (name : String) :
    (component.get name).weight ≤ Value.entriesWeight component + 1 := by
  simp only [Entries.get, Table.get?, Table.find?]
  cases h : List.find? (fun e => e.1.equal (.text name)) component with
  | none => simp [Value.weight]
  | some e =>
    have := Value.weight_le_entriesWeight (List.mem_of_find?_eq_some h)
    simp only [Option.map_some, Option.getD_some]
    omega

theorem weights_lt_of_items? {v : Value} {items : List Value} (h : v.items? = some items) :
    Value.weights items < v.weight := by
  cases v <;> simp only [Value.items?, Option.some.injEq, reduceCtorEq] at h
  all_goals
    subst h
    simp [Value.weight]

/-- The children of a component are smaller than any value it is the plain form of. -/
theorem weights_childrenOf_lt {c : Value} {component : Entries} {items : List Value}
    (hc : c.wire = .ok (.map component)) (h : childrenOf component = some items) :
    Value.weights items < c.weight := by
  have h1 := weights_lt_of_items? h
  have h2 := weight_get_le component "children"
  have h3 := Value.weight_le_of_wire hc
  rw [Value.weight] at h3
  omega

mutual

/-- Renders a component under a key. Transforms can render in turn, nested so deep. -/
def renderWithin (r : Renderer) (limit : Nat) (c key : Value) : Outcome (Option Node) :=
  match _hc : c.wire with
  | .error f => .fail f
  | .ok (.map component) => do
    let some entry ← r.entryOf? (Entries.get component "type") | return none
    let nested : Value → Value → Outcome (Option Node) := fun c key =>
      match limit with
      | 0 => .fail .nesting
      | limit + 1 => renderWithin r limit c key
    let props ← r.finalProps nested component entry key
    match _h : childrenOf component with
    | none => return some ⟨entry.element, .map props, none⟩
    | some items => do
      let children ← renderAll r limit 0 items
      return some ⟨entry.element, .map props, some (children.map some)⟩
  | .ok _ => return none
termination_by (limit, c.weight, 0)
decreasing_by
  · exact Prod.Lex.left _ _ (Nat.lt_succ_self _)
  · exact Prod.Lex.right _ (Prod.Lex.left _ _ (weights_childrenOf_lt _hc _h))

/-- Renders components under their positions, the first of which is `i`. -/
def renderAll (r : Renderer) (limit i : Nat) : List Value → Outcome (List Node)
  | [] => return []
  | c :: rest => do
    let node ← renderWithin r limit c (.int i)
    let nodes ← renderAll r limit (i + 1) rest
    return node.toList ++ nodes
termination_by items => (limit, Value.weights items, 1)
decreasing_by
  · simp only [Value.weights]
    by_cases h : Value.weights rest = 0
    · rw [h]
      exact Prod.Lex.right _ (Prod.Lex.right _ (by omega))
    · exact Prod.Lex.right _ (Prod.Lex.left _ _ (by omega))
  · have := Value.weight_pos c
    simp only [Value.weights]
    exact Prod.Lex.right _ (Prod.Lex.left _ _ (by omega))

end

end Renderer
end ViewDoc
