import ViewDoc.Proofs.Depth
import ViewDoc.Engine

/-!
What rendering a component gives, one component at a time.

A component that is not live leaves no node. For one that is live, only its style and its children
can stand in the way once its transform returns.
-/

namespace ViewDoc

namespace Renderer

/-- Rendering as transforms can ask for it, nested so deep. -/
def renderNested (r : Renderer) : Nat → Value → Value → Outcome (Option Node)
  | 0, _, _ => .fail .nesting
  | limit + 1, c, key => r.renderWithin limit c key

theorem renderWithin_map {r : Renderer} {c : Value} {component : Entries}
    (hc : c.wire = .ok (.map component)) (limit : Nat) (key : Value) :
    r.renderWithin limit c key = liftM (r.entryOf? (component.get "type")) >>= fun
      | none => pure none
      | some entry => r.finalProps (r.renderNested limit) component entry key >>= fun props =>
        match childrenOf component with
        | none => pure (some ⟨entry.element, .map props, none⟩)
        | some items => r.renderAll limit 0 items >>= fun nodes =>
          pure (some ⟨entry.element, .map props, some (nodes.map some)⟩) := by
  rw [renderWithin]
  split
  · rename_i h
    rw [hc] at h
    cases h
  · rename_i component' hc'
    obtain rfl : component = component' := by simpa [hc] using hc'
    refine bind_congr fun e => ?_
    cases e with
    | none => rfl
    | some entry =>
      refine congrArg₂ Bind.bind (congrArg (r.finalProps · component entry key) ?_) ?_
      · funext c key
        cases limit <;> rfl
      · funext props
        split
        · rename_i h
          simp [h]
        · rename_i items h
          simp [h]
  · rename_i w hother hw
    exact absurd (Except.ok.inj (hw.symm.trans hc)) (hother component)

theorem renderWithin_of_wire_error {r : Renderer} {c : Value} {f : Failure}
    (hc : c.wire = .error f) (limit : Nat) (key : Value) :
    r.renderWithin limit c key = .fail f := by
  rw [renderWithin]
  split
  · rename_i g h
    rw [Except.error.inj (hc.symm.trans h)]
  all_goals
    rename_i h
    rw [hc] at h
    cases h

theorem renderWithin_other {r : Renderer} {c w : Value} (hc : c.wire = .ok w)
    (hw : ∀ component, w ≠ .map component) (limit : Nat) (key : Value) :
    r.renderWithin limit c key = pure none := by
  rw [renderWithin]
  split
  · rename_i h
    rw [hc] at h
    cases h
  · rename_i component h
    exact absurd (Except.ok.inj (hc.symm.trans h)) (hw component)
  · rfl

/-- The nodes of the children, unless there is no list of them. -/
def renderedChildren (r : Renderer) (limit : Nat) (component : Entries) :
    Except Failure (Option (List (Option Node))) :=
  match childrenOf component with
  | none => .ok none
  | some items => (r.renderAll limit 0 items).result.map fun nodes => some (nodes.map some)

theorem result_renderWithin_map {r : Renderer} {c : Value} {component : Entries}
    (hc : c.wire = .ok (.map component)) (limit : Nat) (key : Value) :
    (r.renderWithin limit c key).result = (r.entryOf? (component.get "type")).bind fun
      | none => .ok none
      | some entry =>
        (r.finalProps (r.renderNested limit) component entry key).result.bind fun props =>
          (r.renderedChildren limit component).map fun children =>
            some ⟨entry.element, .map props, children⟩ := by
  rw [renderWithin_map hc, Outcome.result_bind, Outcome.result_liftM]
  congr 1
  funext e
  cases e with
  | none => rfl
  | some entry =>
    simp only [Outcome.result_bind, renderedChildren]
    congr 1
    funext props
    cases childrenOf component with
    | none => rfl
    | some items =>
      simp only [Outcome.result_bind]
      cases (r.renderAll limit 0 items).result <;> rfl

/-- Each child is rendered under its position, and what gives no node leaves none. -/
theorem result_renderAll (r : Renderer) (limit i : Nat) (items : List Value) :
    (r.renderAll limit i items).result =
      ((items.zipIdx i).mapM fun p => (r.renderWithin limit p.1 (.int p.2)).result).map
        List.reduceOption := by
  induction items generalizing i with
  | nil =>
    rw [renderAll]
    rfl
  | cons c items ih =>
    rw [renderAll, List.zipIdx_cons, List.mapM_cons]
    simp only [Outcome.result_bind, ih]
    simp only [bind]
    cases (r.renderWithin limit c (.int i)).result with
    | error f => rfl
    | ok node =>
      cases (items.zipIdx (i + 1)).mapM fun p => (r.renderWithin limit p.1 (.int p.2)).result with
      | error f => rfl
      | ok nodes => cases node <;> rfl

/-! ### Live components -/

/-- Whether a component leaves a node: its plain form is a map whose type is registered. -/
def isLive (r : Renderer) (c : Value) : Bool :=
  match c.wire with
  | .ok (.map component) =>
    match r.components.lookup? (Entries.get component "type") with
    | none | some (.value .null) => false
    | some _ => true
  | _ => false

theorem exists_wire_of_isLive {r : Renderer} {c : Value} (h : r.isLive c = true) :
    ∃ component, c.wire = .ok (.map component) := by
  rw [isLive] at h
  split at h
  · rename_i component hc
    exact ⟨component, hc⟩
  · cases h

theorem exists_spec_of_isLive {r : Renderer} {c : Value} {component : Entries}
    (h : r.isLive c = true) (hc : c.wire = .ok (.map component)) :
    ∃ spec, r.components.lookup? (component.get "type") = some spec ∧ spec ≠ .value .null := by
  simp only [isLive, hc] at h
  split at h
  · cases h
  · cases h
  · rename_i spec hnull hs
    exact ⟨spec, hs, hnull⟩

theorem entryOf?_of_lookup {r : Renderer} {type : Value} {spec : ComponentSpec}
    (h : r.components.lookup? type = some spec) (hnull : spec ≠ .value .null) :
    r.entryOf? type = (ComponentEntry.coerce r.asTransform spec).map some := by
  unfold entryOf?
  split
  · rename_i hs
    rw [h] at hs
    cases hs
  · rename_i hs
    exact absurd (Option.some.inj (h.symm.trans hs)) hnull
  · rename_i spec' _ hs
    obtain rfl := Option.some.inj (h.symm.trans hs)
    rfl

theorem entryOf?_eq_none_iff {r : Renderer} {c : Value} {component : Entries}
    (hc : c.wire = .ok (.map component)) :
    r.entryOf? (component.get "type") = .ok none ↔ r.isLive c = false := by
  constructor
  · intro h
    by_contra hl
    rw [Bool.not_eq_false] at hl
    obtain ⟨spec, hs, hnull⟩ := exists_spec_of_isLive hl hc
    rw [entryOf?_of_lookup hs hnull, map_eq_ok_iff] at h
    obtain ⟨entry, -, hsome⟩ := h
    cases hsome
  · intro h
    simp only [isLive, hc] at h
    split at h
    · rename_i hs
      simp [entryOf?, hs]
    · rename_i hs
      simp [entryOf?, hs]
    · cases h

theorem renderWithin_of_not_live {r : Renderer} {c w : Value} (hw : c.wire = .ok w)
    (h : r.isLive c = false) (limit : Nat) (key : Value) :
    r.renderWithin limit c key = pure none := by
  by_cases hmap : ∃ component, w = .map component
  · obtain ⟨component, rfl⟩ := hmap
    rw [renderWithin_map hw, (entryOf?_eq_none_iff hw).2 h]
    rfl
  · exact renderWithin_other hw (fun component hc => hmap ⟨component, hc⟩) limit key

/-- What is not live leaves no node, if anything. -/
theorem eq_none_of_not_live {r : Renderer} {c key : Value} {limit : Nat} {out : Option Node}
    (h : r.isLive c = false) (ho : (r.renderWithin limit c key).result = .ok out) : out = none := by
  cases hw : c.wire with
  | error f =>
    rw [renderWithin_of_wire_error hw] at ho
    cases ho
  | ok w =>
    rw [renderWithin_of_not_live hw h] at ho
    exact (Except.ok.inj ho).symm

/-- The items of a component's children, if its plain form is a map and holds a list of them. -/
def sourceChildren (c : Value) : Option (List Value) :=
  match c.wire with
  | .ok (.map component) => childrenOf component
  | _ => none

theorem sourceChildren_of_wire {c : Value} {component : Entries}
    (hc : c.wire = .ok (.map component)) : sourceChildren c = childrenOf component := by
  simp only [sourceChildren, hc]

theorem weights_lt_of_sourceChildren {c : Value} {items : List Value}
    (h : sourceChildren c = some items) : Value.weights items < c.weight := by
  unfold sourceChildren at h
  split at h
  · rename_i component hc
    exact weights_childrenOf_lt hc h
  · cases h

theorem weight_lt_of_sourceChildren {c d : Value} {items : List Value}
    (hs : sourceChildren c = some items) (hd : d ∈ items) : d.weight < c.weight := by
  have hitems := weights_lt_of_sourceChildren hs
  have hle := Value.weight_le_weights hd
  omega

/-- What a component has whenever its children have it, all components have: children are
smaller. -/
theorem component_induction {p : Value → Prop}
    (h : ∀ c, (∀ items, sourceChildren c = some items → ∀ d ∈ items, p d) → p c) (c : Value) :
    p c := by
  induction hw : c.weight using Nat.strongRecOn generalizing c with
  | _ w ih =>
    refine h c fun items hs d hd => ?_
    have hlt := weight_lt_of_sourceChildren hs hd
    exact ih d.weight (hw ▸ hlt) d rfl

/-- The component at positions below another one, when all above it are live. -/
inductive ReachedAt (r : Renderer) : Value → List Nat → Value → Prop
  | here (c : Value) : ReachedAt r c [] c
  | child {c d s : Value} {items : List Value} {i : Nat} {is : List Nat} : r.isLive c = true →
      sourceChildren c = some items → items[i]? = some d → ReachedAt r d is s →
      ReachedAt r c (i :: is) s

/-- The component at positions below another one, when it is live and all above it are. -/
def LiveAt (r : Renderer) (c : Value) (is : List Nat) (s : Value) : Prop :=
  r.ReachedAt c is s ∧ r.isLive s = true

theorem ReachedAt.isLive {r : Renderer} {c s : Value} {is : List Nat} (h : r.ReachedAt c is s)
    (hs : r.isLive s = true) : r.isLive c = true := by
  cases h <;> assumption

/-- What holds of all components that are reached holds of the first and of those reached from its
children. -/
theorem forall_reachedAt_iff {r : Renderer} {c : Value} {p : Value → Prop} :
    (∀ is s, r.ReachedAt c is s → p s) ↔ p c ∧ (r.isLive c = true →
      ∀ items, sourceChildren c = some items →
        ∀ d ∈ items, ∀ is s, r.ReachedAt d is s → p s) := by
  constructor
  · intro h
    refine ⟨h [] c (.here c), ?_⟩
    intro hl items hs d hd is s hreach
    obtain ⟨i, hi⟩ := List.mem_iff_getElem?.1 hd
    exact h (i :: is) s (.child hl hs hi hreach)
  · intro h is s hreach
    cases hreach with
    | here => exact h.1
    | child hl hs hi hreach => exact h.2 hl _ hs _ (List.mem_of_getElem? hi) _ s hreach

/-! ### Transforms -/

/-- A component's type is registered for something that can be used, and its transform returns
normally with props. -/
def Returns (r : Renderer) (limit : Nat) (c : Value) : Prop :=
  ∃ component entry transformed parsed, c.wire = .ok (.map component) ∧
    r.entryOf? (Entries.get component "type") = .ok (some entry) ∧
    (entry.transform (r.context (r.renderNested limit) component)).result = .ok transformed ∧
    transformed.parsedProps = .ok parsed

/-- So it is for every live component of a document. -/
def TransformsReturn (r : Renderer) (limit : Nat) (c : Value) : Prop :=
  ∀ is s, r.LiveAt c is s → r.Returns limit s

theorem TransformsReturn.child {r : Renderer} {limit : Nat} {c d : Value} {items : List Value}
    {i : Nat} (h : r.TransformsReturn limit c) (hc : r.isLive c = true)
    (hs : sourceChildren c = some items) (hi : items[i]? = some d) :
    r.TransformsReturn limit d :=
  fun is s hl => h (i :: is) s ⟨.child hc hs hi hl.1, hl.2⟩

theorem transformsReturn_of_identity {r : Renderer} {limit : Nat} {c : Value}
    (h : ∀ e ∈ r.components, ∃ element, e.2 = .entry ⟨element, .identity⟩) :
    r.TransformsReturn limit c := by
  intro is s hl
  obtain ⟨component, hc⟩ := exists_wire_of_isLive hl.2
  obtain ⟨spec, hs, hnull⟩ := exists_spec_of_isLive hl.2 hc
  have he := entryOf?_of_lookup hs hnull
  unfold Table.lookup? Table.find? at hs
  split at hs
  · obtain ⟨p, hp, rfl⟩ := Option.map_eq_some_iff.1 hs
    obtain ⟨element, hentry⟩ := h p (List.mem_of_find?_eq_some hp)
    rw [hentry] at he
    exact ⟨component, _, _, _, hc, he, rfl, rfl⟩
  · cases hs

theorem result_renderWithin_of_transformed {r : Renderer} {c : Value} {component : Entries}
    {limit : Nat} {entry : ComponentEntry} {transformed : Transformed} {parsed : Entries}
    (hc : c.wire = .ok (.map component))
    (he : r.entryOf? (component.get "type") = .ok (some entry))
    (ht : (entry.transform (r.context (r.renderNested limit) component)).result = .ok transformed)
    (hp : transformed.parsedProps = .ok parsed) (key : Value) :
    (r.renderWithin limit c key).result = (r.style? component).result.bind fun style =>
      (r.renderedChildren limit component).map fun children => some
        ⟨entry.element, .map (mergeProps (ownProps component) style parsed key), children⟩ := by
  rw [result_renderWithin_map hc, he, ok_bind]
  simp only [finalProps, Outcome.result_bind, Outcome.result_liftM, ht, hp, ok_bind,
    Outcome.result_pure]
  cases (r.style? component).result <;> rfl

/-- The key is laid over the other props last. -/
theorem key_of_mergeProps (element : Value) (own : Entries) (style : Option Value)
    (parsed : Entries) (key : Value) (children : Option (List (Option Node))) :
    Node.key ⟨element, .map (mergeProps own style parsed key), children⟩ = .ok key := by
  have hk : (Value.text "key").equal (.text "key") = true := by simp
  have hf := Table.find?_insert_self (Table.update
    (style.elim own fun s => Table.insert own (.text "style") s) parsed) hk key
  simp [Node.key, Node.prop, Value.entries, Value.entries?, Entries.atKey, Value.isHashable,
    mergeProps, hf, bind, Except.bind]

end Renderer
end ViewDoc
