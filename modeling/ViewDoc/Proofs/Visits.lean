import ViewDoc.Proofs.DocumentOrder
import ViewDoc.Proofs.Effects

/-!
What rendering does on its way: it visits the components that are live with all above them, each
once and in document order, and ends with the first at which something fails. One without a plain
form is where it ends as well.

Transforms can do anything but render. Their runs are seen by watching them: every transform is
replaced by one that records the component it runs for and then gives what the transform gives.
-/

namespace ViewDoc

/-- A transform that makes no use of the rendering it is given. -/
def Transform.RendersNothing (transform : Transform) : Prop :=
  ∀ (context : TransformContext) (render : Value → Value → Outcome (Option Node)),
    transform { context with services := { context.services with render } } = transform context

/-- Records each run of a transform by the component that it runs for, and gives what it gives. -/
def Transform.watched (transform : Transform) : Transform := fun context =>
  ⟨(transform context).result, [.event (.map context.component)]⟩

def ComponentEntry.watched (entry : ComponentEntry) : ComponentEntry :=
  ⟨entry.element, entry.transform.watched⟩

/-- What is refused has no transform to watch. -/
def ComponentSpec.watched (asTransform : Value → Transform) (spec : ComponentSpec) :
    ComponentSpec :=
  match ComponentEntry.coerce asTransform spec with
  | .ok e => .entry e.watched
  | .error _ => spec

theorem Transform.RendersNothing.watched {transform : Transform}
    (h : transform.RendersNothing) : transform.watched.RendersNothing := by
  intro context render
  simp only [Transform.watched, h context render]

namespace Renderer

attribute [local instance] Outcome.lawful

variable {r : Renderer} {limit : Nat}

/-- No transform in the table renders on its own. -/
def TransformsRenderNothing (r : Renderer) : Prop :=
  ∀ e ∈ r.components, ∀ entry, ComponentEntry.coerce r.asTransform e.2 = .ok entry →
    entry.transform.RendersNothing

theorem transformsRenderNothing_of_entries
    (h : ∀ e ∈ r.components, ∃ entry, e.2 = .entry entry ∧ entry.transform.RendersNothing) :
    r.TransformsRenderNothing := by
  intro e he entry hentry
  obtain ⟨own, heq, hown⟩ := h e he
  rw [heq] at hentry
  obtain rfl := Except.ok.inj hentry
  exact hown

/-- What happens at a component itself: its plain form is taken, its type is looked up, its style is
resolved, and its transform runs. -/
def visit (r : Renderer) (c : Value) : Outcome Unit :=
  match c.wire with
  | .error f => .fail f
  | .ok (.map component) => liftM (r.entryOf? (Entries.get component "type")) >>= fun
    | none => pure ()
    | some entry => (r.finalProps (r.renderNested 0) component entry .null).effect
  | .ok _ => pure ()

theorem visit_of_wire_error {c : Value} {f : Failure} (hc : c.wire = .error f) :
    r.visit c = .fail f := by
  simp only [visit, hc]

theorem visit_map {c : Value} {component : Entries} (hc : c.wire = .ok (.map component)) :
    r.visit c = liftM (r.entryOf? (component.get "type")) >>= fun
      | none => pure ()
      | some entry => (r.finalProps (r.renderNested 0) component entry .null).effect := by
  simp only [visit, hc]

theorem exists_spec_of_entryOf? {type : Value} {entry : ComponentEntry}
    (h : r.entryOf? type = .ok (some entry)) :
    ∃ spec, r.components.lookup? type = some spec ∧
      ComponentEntry.coerce r.asTransform spec = .ok entry := by
  unfold entryOf? at h
  split at h
  · cases h
  · cases h
  · rename_i spec _ hs
    obtain ⟨entry', he, heq⟩ := map_eq_ok_iff.1 h
    obtain rfl := Option.some.inj heq
    exact ⟨spec, hs, he⟩

theorem rendersNothing_of_entryOf? (hr : r.TransformsRenderNothing) {type : Value}
    {entry : ComponentEntry} (h : r.entryOf? type = .ok (some entry)) :
    entry.transform.RendersNothing := by
  obtain ⟨spec, hs, he⟩ := exists_spec_of_entryOf? h
  unfold Table.lookup? Table.find? at hs
  split at hs
  · obtain ⟨p, hp, rfl⟩ := Option.map_eq_some_iff.1 hs
    exact hr p (List.mem_of_find?_eq_some hp) entry he
  · cases hs

/-- The key is only laid over the props, and rendering is only there for the transform. -/
theorem effect_finalProps {entry : ComponentEntry} (h : entry.transform.RendersNothing)
    (nested : Value → Value → Outcome (Option Node)) (component : Entries) (key : Value) :
    (r.finalProps nested component entry key).effect =
      (r.finalProps (r.renderNested 0) component entry .null).effect := by
  have hrun : entry.transform (r.context nested component) =
      entry.transform (r.context (r.renderNested 0) component) :=
    h (r.context (r.renderNested 0) component) nested
  simp only [finalProps, Outcome.effect_bind, Outcome.effect_pure, hrun]

/-- Rendering children in turn does what rendering each of them does. -/
theorem effect_renderAll {items : List Value}
    (h : ∀ d ∈ items, ∀ key, (r.renderWithin limit d key).effect =
      forM (r.order d) fun p => r.visit p.2) (i : Nat) :
    (r.renderAll limit i items).effect = forM (r.orderAll i items) fun p => r.visit p.2 := by
  induction items generalizing i with
  | nil =>
    rw [renderAll, orderAll]
    rfl
  | cons d items ih =>
    have hd := h d List.mem_cons_self (.int i)
    have hrest := ih (fun d' hd' => h d' (List.mem_cons_of_mem d hd')) (i + 1)
    rw [renderAll, orderAll, List.forM_append, List.forM_map, ← hrest, ← hd,
      Outcome.effect_bind_const]
    simp

/-- Rendering does what visiting the components in their order does, and nothing else. -/
theorem effect_renderWithin (hr : r.TransformsRenderNothing) (c key : Value) :
    (r.renderWithin limit c key).effect = forM (r.order c) fun p => r.visit p.2 := by
  -- Transforms do not render, so the limit stays as it is and only children are left.
  induction c using component_induction generalizing key with
  | _ c ih =>
    rcases (Value.exists_wire_or_tooDeep c).symm with hwire | ⟨w, hwire⟩
    · rw [renderWithin_of_wire_error hwire, order_of_wire_error hwire, List.forM_cons,
        visit_of_wire_error hwire]
      rfl
    cases hl : r.isLive c with
    | false =>
      rw [renderWithin_of_not_live hwire hl,
        order_of_not_visited ((isVisited_of_wire hwire).trans hl)]
      rfl
    | true =>
      obtain ⟨component, hc⟩ := exists_wire_of_isLive hl
      have hvisit := r.visit_map hc
      obtain ⟨below, hbelow⟩ := exists_order_of_visited (isVisited_of_isLive hl)
      rw [renderWithin_map hc, hbelow, List.forM_cons, hvisit]
      cases he : r.entryOf? (Entries.get component "type") with
      | error f => rfl
      | ok found =>
        cases found with
        | none =>
          rw [(entryOf?_eq_none_iff hc).1 he] at hl
          cases hl
        | some entry =>
          have hprops := effect_finalProps (r := r) (rendersNothing_of_entryOf? hr he)
            (r.renderNested limit) component key
          change (r.finalProps (r.renderNested limit) component entry key >>= _).effect =
            (r.finalProps (r.renderNested 0) component entry .null).effect >>= _
          rw [Outcome.effect_bind, ← hprops, Outcome.effect_bind_const]
          refine bind_congr fun props => ?_
          have hchildren := sourceChildren_of_wire hc
          cases hs : childrenOf component with
          | none =>
            rw [order_of_leaf (isVisited_of_isLive hl) (hchildren.trans hs)] at hbelow
            obtain ⟨-, rfl⟩ := List.cons.inj hbelow
            rfl
          | some items =>
            rw [order_of_children hl (hchildren.trans hs)] at hbelow
            obtain ⟨-, rfl⟩ := List.cons.inj hbelow
            rw [← effect_renderAll (ih items (hchildren.trans hs))]
            simp

/-- The same renderer with all transforms watched, so that its events are their runs. -/
def watched (r : Renderer) : Renderer :=
  { r with components := r.components.map fun e => (e.1, e.2.watched r.asTransform) }

theorem lookup?_watched (type : Value) : r.watched.components.lookup? type =
    (r.components.lookup? type).map fun spec => spec.watched r.asTransform := by
  unfold Table.lookup? Table.find?
  split
  · simp [watched, List.find?_map, Function.comp_def]
  · rfl

theorem coerce_watched (asTransform : Value → Transform) (spec : ComponentSpec) :
    ComponentEntry.coerce asTransform (spec.watched asTransform) =
      (ComponentEntry.coerce asTransform spec).map ComponentEntry.watched := by
  unfold ComponentSpec.watched
  cases h : ComponentEntry.coerce asTransform spec with
  | ok e => rfl
  | error f => exact h

theorem watched_eq_null_iff {asTransform : Value → Transform} {spec : ComponentSpec} :
    spec.watched asTransform = .value .null ↔ spec = .value .null := by
  unfold ComponentSpec.watched
  cases h : ComponentEntry.coerce asTransform spec with
  | ok e =>
    have hno : spec ≠ .value .null := by
      intro hnull
      rw [hnull] at h
      cases h
    simp [hno]
  | error f => rfl

theorem entryOf?_watched (type : Value) :
    r.watched.entryOf? type = (r.entryOf? type).map (Option.map ComponentEntry.watched) := by
  cases h : r.components.lookup? type with
  | none => simp [entryOf?, lookup?_watched, h]
  | some spec =>
    have hw : r.watched.components.lookup? type = some (spec.watched r.asTransform) := by
      rw [lookup?_watched, h, Option.map_some]
    by_cases hnull : spec = .value .null
    · subst hnull
      simp [entryOf?, h, hw, watched_eq_null_iff.2]
    · rw [entryOf?_of_lookup h hnull, entryOf?_of_lookup hw (mt watched_eq_null_iff.1 hnull)]
      change (ComponentEntry.coerce r.asTransform (spec.watched r.asTransform)).map some = _
      rw [coerce_watched]
      cases ComponentEntry.coerce r.asTransform spec <;> rfl

theorem isLive_watched (c : Value) : r.watched.isLive c = r.isLive c := by
  by_cases hmap : ∃ component, c.wire = .ok (.map component)
  · obtain ⟨component, hc⟩ := hmap
    have hiff : r.watched.isLive c = false ↔ r.isLive c = false := by
      rw [← entryOf?_eq_none_iff hc, ← entryOf?_eq_none_iff hc, entryOf?_watched]
      cases r.entryOf? (Entries.get component "type") with
      | error f => simp
      | ok found => cases found <;> simp
    cases h : r.isLive c with
    | false => exact hiff.2 h
    | true =>
      cases hw : r.watched.isLive c with
      | false => exact absurd (hiff.1 hw) (by simp [h])
      | true => rfl
  · have hno (r : Renderer) : r.isLive c = false := by
      cases h : r.isLive c with
      | false => rfl
      | true => exact absurd (exists_wire_of_isLive h) hmap
    rw [hno, hno]

theorem isVisited_watched (c : Value) : r.watched.isVisited c = r.isVisited c := by
  simp only [isVisited, isLive_watched]

theorem order_watched (c : Value) : r.watched.order c = r.order c := by
  induction c using component_induction with
  | _ c ih =>
    cases hv : r.isVisited c with
    | false =>
      rw [order_of_not_visited hv, order_of_not_visited ((isVisited_watched c).trans hv)]
    | true =>
      cases hs : sourceChildren c with
      | none => rw [order_of_leaf hv hs, order_of_leaf ((isVisited_watched c).trans hv) hs]
      | some items =>
        have hl := isLive_of_isVisited hv hs
        rw [order_of_children hl hs, order_of_children ((isLive_watched c).trans hl) hs,
          orderAll_eq, orderAll_eq]
        congr 1
        refine List.flatMap_congr ?_
        intro p hp
        rw [ih items hs p.1 (List.fst_mem_of_mem_zipIdx hp)]

theorem TransformsRenderNothing.watched (h : r.TransformsRenderNothing) :
    r.watched.TransformsRenderNothing := by
  intro e he entry hentry
  obtain ⟨e', he', rfl⟩ := List.mem_map.1 he
  obtain ⟨entry', hc, rfl⟩ := map_eq_ok_iff.1 ((coerce_watched _ _).symm.trans hentry)
  exact (h e' he' entry' hc).watched

theorem result_finalProps_watched {entry : ComponentEntry} (h : entry.transform.RendersNothing)
    (nested nested' : Value → Value → Outcome (Option Node)) (component : Entries) (key : Value) :
    (r.watched.finalProps nested' component entry.watched key).result =
      (r.finalProps nested component entry key).result := by
  have hrun : entry.transform (r.context nested' component) =
      entry.transform (r.context nested component) := h (r.context nested component) nested'
  have hwatched : (entry.watched.transform (r.watched.context nested' component)).result =
      (entry.transform (r.context nested component)).result := by
    rw [← hrun]
    rfl
  simp only [finalProps, Outcome.result_bind, hwatched]
  rfl

/-- Watching transforms makes no difference to what rendering gives. -/
theorem result_renderWithin_watched (hr : r.TransformsRenderNothing) (c key : Value) :
    (r.watched.renderWithin limit c key).result = (r.renderWithin limit c key).result := by
  induction c using component_induction generalizing key with
  | _ c ih =>
    rcases (Value.exists_wire_or_tooDeep c).symm with hwire | ⟨w, hwire⟩
    · rw [renderWithin_of_wire_error hwire, renderWithin_of_wire_error hwire]
    cases hl : r.isLive c with
    | false =>
      rw [renderWithin_of_not_live hwire hl,
        renderWithin_of_not_live hwire ((isLive_watched c).trans hl)]
    | true =>
      obtain ⟨component, hc⟩ := exists_wire_of_isLive hl
      rw [result_renderWithin_map hc, result_renderWithin_map hc, entryOf?_watched]
      cases he : r.entryOf? (Entries.get component "type") with
      | error f => rfl
      | ok found =>
        cases found with
        | none => rfl
        | some entry =>
          have hprops := result_finalProps_watched (r := r) (rendersNothing_of_entryOf? hr he)
            (r.renderNested limit) (r.watched.renderNested limit) component key
          simp only [ok_map, Option.map_some, ok_bind]
          rw [hprops]
          congr 1
          funext props
          rw [renderedChildren, renderedChildren]
          cases hs : childrenOf component with
          | none => rfl
          | some items =>
            have hall : ((items.zipIdx 0).mapM fun p =>
                (r.watched.renderWithin limit p.1 (.int p.2)).result) =
                (items.zipIdx 0).mapM fun p => (r.renderWithin limit p.1 (.int p.2)).result := by
              refine mapM_congr ?_
              intro p hp
              have hchildren := (sourceChildren_of_wire hc).trans hs
              exact ih items hchildren p.1 (List.fst_mem_of_mem_zipIdx hp) _
            simp only [result_renderAll, hall]
            rfl

/-- The transform of this entry runs for a component: it is registered for its type, and the style
can be resolved. -/
structure Runs (r : Renderer) (c : Value) (component : Entries) (entry : ComponentEntry) :
    Prop where
  wire : c.wire = .ok (.map component)
  registered : r.entryOf? (component.get "type") = .ok (some entry)
  styled : ∃ style, (r.style? component).result = .ok style

/-- What the transform of an entry gives for a component. -/
def transformed (r : Renderer) (component : Entries) (entry : ComponentEntry) :
    Except Failure Transformed :=
  (entry.transform (r.context (r.renderNested 0) component)).result

/-- Rendering fails at a component before a transform runs for it. -/
inductive BlockedAt (r : Renderer) (c : Value) (f : Failure) : Prop
  | unwritten : c.wire = .error f → BlockedAt r c f
  | refused {component : Entries} : c.wire = .ok (.map component) →
      r.entryOf? (component.get "type") = .error f → BlockedAt r c f
  | unstyled {component : Entries} {entry : ComponentEntry} : c.wire = .ok (.map component) →
      r.entryOf? (component.get "type") = .ok (some entry) →
      (r.style? component).result = .error f → BlockedAt r c f

/-- The transform runs for a component, and it raises or gives what holds no props. -/
inductive FailsAt (r : Renderer) (c : Value) (f : Failure) : Prop
  | raised {component : Entries} {entry : ComponentEntry} : r.Runs c component entry →
      r.transformed component entry = .error f → FailsAt r c f
  | unread {component : Entries} {entry : ComponentEntry} {transformed : Transformed} :
      r.Runs c component entry → r.transformed component entry = .ok transformed →
      transformed.parsedProps = .error f → FailsAt r c f

def PassesAt (r : Renderer) (c : Value) : Prop := ∀ f, ¬ r.BlockedAt c f ∧ ¬ r.FailsAt c f

theorem visit_watched_of_entry {c : Value} {component : Entries} {entry : ComponentEntry}
    (hc : c.wire = .ok (.map component))
    (he : r.entryOf? (component.get "type") = .ok (some entry)) :
    r.watched.visit c = r.style? component >>= fun _ =>
      entry.transform.watched (r.context (r.renderNested 0) component) >>= fun transformed =>
        liftM transformed.parsedProps >>= fun _ => pure () := by
  rw [visit_map hc, entryOf?_watched, he]
  change (r.watched.finalProps (r.watched.renderNested 0) component entry.watched .null).effect = _
  simp only [finalProps, Outcome.effect_bind, Outcome.effect_pure]
  rfl

/-- What is visited and passed is live, -/
theorem isLive_of_passes {c : Value} (hv : r.isVisited c = true) (h : r.PassesAt c) :
    r.isLive c = true := by
  cases hw : c.wire with
  | error f => exact absurd (.unwritten hw) (h f).1
  | ok w => rw [← isVisited_of_wire hw, hv]

/-- and it is not passed without its transform. -/
theorem exists_runs_of_passes {c : Value} (hl : r.isLive c = true) (h : r.PassesAt c) :
    ∃ component entry transformed parsed, r.Runs c component entry ∧
      r.transformed component entry = .ok transformed ∧ transformed.parsedProps = .ok parsed := by
  obtain ⟨component, hc⟩ := exists_wire_of_isLive hl
  cases he : r.entryOf? (Entries.get component "type") with
  | error f => exact absurd (.refused hc he) (h f).1
  | ok found =>
    cases found with
    | none =>
      rw [(entryOf?_eq_none_iff hc).1 he] at hl
      cases hl
    | some entry =>
      cases hs : (r.style? component).result with
      | error f => exact absurd (.unstyled hc he hs) (h f).1
      | ok style =>
        have hr : r.Runs c component entry := ⟨hc, he, style, hs⟩
        cases ht : r.transformed component entry with
        | error f => exact absurd (.raised hr ht) (h f).2
        | ok transformed =>
          cases hp : transformed.parsedProps with
          | error f => exact absurd (.unread hr ht hp) (h f).2
          | ok parsed => exact ⟨component, entry, transformed, parsed, hr, ht, hp⟩

section Watching

variable (hq : ∀ v, (r.resolveStyle v).events = [])
include hq

theorem events_style? (component : Entries) : (r.style? component).events = [] := by
  simp only [style?]
  split
  · rfl
  · rw [bind_pure_comp, Outcome.events_map, hq]

theorem visit_watched_of_runs {c : Value} {component : Entries} {entry : ComponentEntry}
    (h : r.Runs c component entry) : (r.watched.visit c).events = [.map component] ∧
      (r.watched.visit c).result =
        ((r.transformed component entry).bind Transformed.parsedProps).map fun _ => () := by
  obtain ⟨style, hs⟩ := h.styled
  rw [visit_watched_of_entry h.wire h.registered]
  constructor
  · rw [Outcome.events_bind_of_ok hs, events_style? hq, Outcome.events_bind_of_silent]
    · rfl
    · intro transformed
      exact Outcome.events_bind_of_silent _ fun _ => rfl
  · simp only [Outcome.result_bind, hs, ok_bind, Outcome.result_liftM, Outcome.result_pure]
    change (r.transformed component entry).bind _ = _
    cases r.transformed component entry with
    | error f => rfl
    | ok transformed =>
      simp only [ok_bind]
      cases transformed.parsedProps <;> rfl

theorem visit_watched_of_blocked {c : Value} {f : Failure} (h : r.BlockedAt c f) :
    (r.watched.visit c).events = [] ∧ (r.watched.visit c).result = .error f := by
  cases h with
  | unwritten hc =>
    rw [visit_of_wire_error hc]
    exact ⟨rfl, rfl⟩
  | refused hc he =>
    rw [visit_map hc, entryOf?_watched, he]
    exact ⟨rfl, rfl⟩
  | unstyled hc he hs =>
    rw [visit_watched_of_entry hc he]
    constructor
    · rw [Outcome.events_bind_of_error hs, events_style? hq]
    · rw [Outcome.result_bind, hs, error_bind]

theorem visit_watched_of_fails {c : Value} {f : Failure} (h : r.FailsAt c f) :
    (r.watched.visit c).events.map Except.ok = [c.wire] ∧
      (r.watched.visit c).result = .error f := by
  cases h with
  | raised hr ht =>
    obtain ⟨hevents, hresult⟩ := visit_watched_of_runs hq hr
    rw [ht] at hresult
    rw [hevents, hr.wire]
    exact ⟨rfl, hresult⟩
  | unread hr ht hp =>
    obtain ⟨hevents, hresult⟩ := visit_watched_of_runs hq hr
    rw [ht, ok_bind, hp] at hresult
    rw [hevents, hr.wire]
    exact ⟨rfl, hresult⟩

theorem passes_of_visit_watched {c : Value} (h : (r.watched.visit c).result = .ok ()) :
    r.PassesAt c := by
  intro f
  constructor
  · intro hb
    rw [(visit_watched_of_blocked hq hb).2] at h
    cases h
  · intro hf
    rw [(visit_watched_of_fails hq hf).2] at h
    cases h

theorem passes_of_runs {c : Value} {component : Entries} {entry : ComponentEntry}
    {transformed : Transformed} {parsed : Entries} (hr : r.Runs c component entry)
    (ht : r.transformed component entry = .ok transformed)
    (hp : transformed.parsedProps = .ok parsed) : r.PassesAt c := by
  apply passes_of_visit_watched hq
  rw [(visit_watched_of_runs hq hr).2, ht, ok_bind, hp, ok_map]

theorem visit_watched_of_passes {c : Value} (hv : r.isVisited c = true) (h : r.PassesAt c) :
    (r.watched.visit c).events.map Except.ok = [c.wire] ∧
      (r.watched.visit c).result = .ok () := by
  obtain ⟨component, entry, transformed, parsed, hr, ht, hp⟩ :=
    exists_runs_of_passes (isLive_of_passes hv h) h
  obtain ⟨hevents, hresult⟩ := visit_watched_of_runs hq hr
  rw [ht, ok_bind, hp] at hresult
  rw [hevents, hr.wire]
  exact ⟨rfl, hresult⟩

theorem result_visit_watched_eq_ok_iff {c : Value} (hv : r.isVisited c = true) :
    (r.watched.visit c).result = .ok () ↔ r.PassesAt c := by
  constructor
  · exact passes_of_visit_watched hq
  · intro h
    exact (visit_watched_of_passes hq hv h).2

theorem flatMap_visits {visits : List (List Nat × Value)}
    (hv : ∀ p ∈ visits, r.isVisited p.2 = true) (h : ∀ p ∈ visits, r.PassesAt p.2) :
    (visits.flatMap fun p => (r.watched.visit p.2).events).map Except.ok =
      visits.map fun p => p.2.wire := by
  rw [List.map_flatMap, List.map_eq_flatMap]
  refine List.flatMap_congr ?_
  intro p hp
  exact (visit_watched_of_passes hq (hv p hp) (h p hp)).1

/-- Rendering succeeds if every component passes, -/
theorem renders_iff_passes (hr : r.TransformsRenderNothing) {c : Value} (key : Value) :
    (∃ out, (r.renderWithin limit c key).result = .ok out) ↔
      ∀ p ∈ r.order c, r.PassesAt p.2 := by
  have heffect : (r.watched.renderWithin limit c key).effect = _ :=
    effect_renderWithin hr.watched c key
  have hok : (r.watched.renderWithin limit c key).effect.result = .ok () ↔
      ∀ p ∈ r.order c, r.PassesAt p.2 := by
    rw [heffect, order_watched, Outcome.result_forM_eq_ok_iff]
    refine forall₂_congr fun p hp => ?_
    exact result_visit_watched_eq_ok_iff hq (isVisited_of_mem_order hp)
  rw [← hok, Outcome.result_effect, result_renderWithin_watched hr, map_eq_ok_iff]
  simp

/-- and then a transform has run for each. -/
theorem events_of_passes (hr : r.TransformsRenderNothing) {c : Value} (key : Value)
    (h : ∀ p ∈ r.order c, r.PassesAt p.2) :
    (r.watched.renderWithin limit c key).events.map Except.ok =
      (r.order c).map fun p => p.2.wire := by
  have hv : ∀ p ∈ r.order c, r.isVisited p.2 = true := fun _ => isVisited_of_mem_order
  have hpass : ∀ p ∈ r.order c, (r.watched.visit p.2).result = .ok () := by
    intro p hp
    exact (result_visit_watched_eq_ok_iff hq (hv p hp)).2 (h p hp)
  rw [← Outcome.events_effect, effect_renderWithin hr.watched, order_watched,
    (Outcome.gives_forM hpass).events, flatMap_visits hq hv h]

/-- Rendering ends with the first component that does not pass. -/
theorem runs_of_stop (hr : r.TransformsRenderNothing) {c : Value} (key : Value)
    {before after : List (List Nat × Value)} {p : List Nat × Value} {f : Failure}
    (hsplit : r.order c = before ++ p :: after) (h : ∀ q ∈ before, r.PassesAt q.2)
    (hp : (r.watched.visit p.2).result = .error f) :
    (r.renderWithin limit c key).result = .error f ∧
      (r.watched.renderWithin limit c key).events.map Except.ok =
        (before.map fun q => q.2.wire) ++ (r.watched.visit p.2).events.map Except.ok := by
  have hv : ∀ q ∈ before, r.isVisited q.2 = true := by
    intro q hmem
    have hin : q ∈ r.order c := hsplit ▸ List.mem_append_left _ hmem
    exact isVisited_of_mem_order hin
  have hbefore : ∀ q ∈ before, (r.watched.visit q.2).result = .ok () := by
    intro q hmem
    exact (result_visit_watched_eq_ok_iff hq (hv q hmem)).2 (h q hmem)
  have heffect : (r.watched.renderWithin limit c key).effect = _ :=
    effect_renderWithin hr.watched c key
  rw [order_watched, hsplit] at heffect
  have hstop : (forM (before ++ p :: after) fun q => r.watched.visit q.2).result = .error f ∧ _ :=
    Outcome.forM_of_fail hbefore hp
  obtain ⟨hresult, hevents⟩ := hstop
  constructor
  · rw [← heffect, Outcome.result_effect, map_eq_error_iff, result_renderWithin_watched hr]
      at hresult
    exact hresult
  · rw [← Outcome.events_effect, heffect, hevents, List.map_append, flatMap_visits hq hv h]

end Watching

end Renderer

namespace Engine

open Renderer

variable (host : Host) (e : Engine)

/-- The components that transforms run for while one is rendered, from the first run to the last. -/
def invocations (c key : Value) : List Value :=
  ((e.renderer host).watched.renderWithin host.depth c key).events

theorem events_resolveStyle (v : Value) : ((e.renderer host).resolveStyle v).events = [] :=
  Outcome.events_bind_of_silent (liftM (e.resolveStyle v)) fun _ => rfl

/-- A component stands too deep to be written, or its entry is refused, or its style cannot be
resolved: nothing else keeps a transform from running. -/
theorem blockedAt_iff {c : Value} {f : Failure} : (e.renderer host).BlockedAt c f ↔
    c.wire = .error f ∨ ∃ component : Entries, c.wire = .ok (.map component) ∧
      ((e.renderer host).entryOf? (component.get "type") = .error f ∨
        (∃ entry, (e.renderer host).entryOf? (component.get "type") = .ok (some entry)) ∧
          Style.Fails e.registries.styles (component.get "style") f) := by
  constructor
  · intro h
    cases h with
    | unwritten hc => exact .inl hc
    | refused hc he => exact .inr ⟨_, hc, .inl he⟩
    | unstyled hc he hs => exact .inr ⟨_, hc, .inr ⟨⟨_, he⟩, style?_eq_error_iff.1 hs⟩⟩
  · intro h
    obtain hc | ⟨component, hc, he | ⟨⟨entry, he⟩, hs⟩⟩ := h
    · exact .unwritten hc
    · exact .refused hc he
    · exact .unstyled hc he (style?_eq_error_iff.2 hs)

/-- Transforms run in document order, once for each component that is live with all above it, up to
and including the first that raises, unless a component before it stops rendering without a run.
Watching transforms changes no result. -/
theorem render_visits {c : Value} (key : Value)
    (hr : (e.renderer host).TransformsRenderNothing) :
    let r := e.renderer host
    let result := (e.render host c key).result
    let invoked := (e.invocations host c key).map Except.ok
    (∀ is s, (is, s) ∈ r.order c ↔ r.LiveAt c is s ∨ r.ReachedAt c is s ∧ ∃ f, s.wire = .error f) ∧
    (r.order c).Pairwise (fun p q => p.1 < q.1) ∧
    (r.watched.renderWithin host.depth c key).result = result ∧
    ((∃ out, result = .ok out) ↔ ∀ p ∈ r.order c, r.PassesAt p.2) ∧
    ((∀ p ∈ r.order c, r.PassesAt p.2) → invoked = (r.order c).map (fun p => p.2.wire) ∧
      ∀ is s, (is, s) ∈ r.order c ↔ r.LiveAt c is s) ∧
    (∀ before p after, r.order c = before ++ p :: after → (∀ q ∈ before, r.PassesAt q.2) →
      (∀ f, r.FailsAt p.2 f →
        result = .error f ∧ invoked = (before ++ [p]).map fun q => q.2.wire) ∧
      ∀ f, r.BlockedAt p.2 f → result = .error f ∧ invoked = before.map fun q => q.2.wire) ∧
    ∀ s f, r.BlockedAt s f ↔
      s.wire = .error f ∨ ∃ component : Entries, s.wire = .ok (.map component) ∧
        (r.entryOf? (component.get "type") = .error f ∨
          (∃ entry, r.entryOf? (component.get "type") = .ok (some entry)) ∧
            Style.Fails e.registries.styles (component.get "style") f) := by
  intro r result invoked
  have hq : ∀ v, (r.resolveStyle v).events = [] := e.events_resolveStyle host
  have horder (is : List Nat) (s : Value) : (is, s) ∈ r.order c ↔
      r.LiveAt c is s ∨ r.ReachedAt c is s ∧ ∃ f, s.wire = .error f := by
    rw [mem_order_iff_reachedAt, LiveAt, ← and_or_left]
    refine and_congr_right fun _ => ?_
    cases hw : s.wire with
    | error f => simp [isVisited_of_wire_error hw]
    | ok w => simp [isVisited_of_wire hw]
  refine ⟨horder, pairwise_order r c, result_renderWithin_watched hr c key,
    renders_iff_passes hq hr key, ?_, ?_, fun s f => e.blockedAt_iff host⟩
  · intro h
    refine ⟨events_of_passes hq hr key h, fun is s => ?_⟩
    rw [horder, or_iff_left_iff_imp]
    rintro ⟨hreach, f, hf⟩
    have hmem : (is, s) ∈ r.order c := (horder is s).2 (.inr ⟨hreach, f, hf⟩)
    exact absurd (.unwritten hf) (h (is, s) hmem f).1
  intro before p after hsplit h
  constructor
  · intro f hp
    obtain ⟨hevents, hfail⟩ := visit_watched_of_fails hq hp
    obtain ⟨hresult, hrun⟩ := runs_of_stop hq hr key hsplit h hfail
    refine ⟨hresult, hrun.trans ?_⟩
    rw [hevents, List.map_append]
    rfl
  · intro f hp
    obtain ⟨hevents, hfail⟩ := visit_watched_of_blocked hq hp
    obtain ⟨hresult, hrun⟩ := runs_of_stop hq hr key hsplit h hfail
    refine ⟨hresult, hrun.trans ?_⟩
    rw [hevents, List.map_nil, List.append_nil]

/-- The last leaf of a page is not visited behind a component whose transform raises. -/
theorem render_visits_page :
    let host : Host :=
      ⟨fun _ _ _ _ => .fail .notCallable, fun _ => .identity, 0, ⟨.first, none⟩, 0⟩
    let components : ComponentTable := [(.text "Box", .entry ⟨.text "div", .identity⟩),
      (.text "Boom", .entry ⟨.text "b", fun _ => .fail (.host "boom")⟩)]
    let e : Engine := ⟨⟨[], [], [], components⟩, .standard, none⟩
    let node (type : String) (children : Value) : Value :=
      .map [(.text "type", .text type), (.text "children", children)]
    let leaf := node "Box" .null
    let inner := node "Box" (.tuple [node "Nope" .null, leaf])
    let boom := node "Boom" .null
    let page := node "Box" (.list [.int 5, inner, boom, leaf])
    (e.renderer host).TransformsRenderNothing ∧
      (e.render host page .null).result = .error (.host "boom") ∧
      e.invocations host page .null = [page, inner, leaf, boom] := by
  intro host components e node leaf inner boom page
  have hr : (e.renderer host).TransformsRenderNothing := by
    apply transformsRenderNothing_of_entries
    intro p hp
    simp only [e, components, renderer, List.mem_cons, List.not_mem_nil, or_false] at hp
    rcases hp with rfl | rfl
    · exact ⟨_, rfl, fun _ _ => rfl⟩
    · exact ⟨_, rfl, fun _ _ => rfl⟩
  have horder : (e.renderer host).order page = [([], page), ([1], inner), ([1, 1], leaf)] ++
      ([2], boom) :: [([3], leaf)] := by
    have hleaf : (e.renderer host).order leaf = [([], leaf)] := order_of_leaf rfl rfl
    have hboom : (e.renderer host).order boom = [([], boom)] := order_of_leaf rfl rfl
    have hnope : (e.renderer host).order (node "Nope" .null) = [] := order_of_not_visited rfl
    have hfive : (e.renderer host).order (.int 5) = [] := order_of_not_visited rfl
    have hinner : (e.renderer host).order inner = [([], inner), ([1], leaf)] := by
      have hs : sourceChildren inner = some [node "Nope" .null, leaf] := rfl
      rw [order_of_children rfl hs]
      simp only [orderAll, hnope, hleaf, List.map_nil, List.map_cons, List.nil_append,
        List.append_nil]
    have hs : sourceChildren page = some [.int 5, inner, boom, leaf] := rfl
    rw [order_of_children rfl hs]
    simp only [orderAll, hfive, hinner, hboom, hleaf, List.map_nil, List.map_cons,
      List.nil_append, List.append_nil, List.cons_append]
  have hpass (children : Value) : (e.renderer host).PassesAt (node "Box" children) := by
    have hruns : (e.renderer host).Runs (node "Box" children) _ ⟨.text "div", .identity⟩ :=
      ⟨rfl, rfl, none, rfl⟩
    exact passes_of_runs (e.events_resolveStyle host) hruns rfl rfl
  have hbefore : ∀ q ∈ [([], page), ([1], inner), ([1, 1], leaf)],
      (e.renderer host).PassesAt q.2 := by
    intro q hq
    simp only [List.mem_cons, List.not_mem_nil, or_false] at hq
    rcases hq with rfl | rfl | rfl <;> exact hpass _
  have hfails : (e.renderer host).FailsAt boom (.host "boom") := by
    have hruns : (e.renderer host).Runs boom _ ⟨.text "b", fun _ => .fail (.host "boom")⟩ :=
      ⟨rfl, rfl, none, rfl⟩
    exact .raised hruns rfl
  obtain ⟨-, -, -, -, -, hstop, -⟩ := e.render_visits host .null hr
  obtain ⟨hresult, hrun⟩ := (hstop _ _ _ horder hbefore).1 _ hfails
  exact ⟨hr, hresult, map_ok_injective hrun⟩

/-- No transform raises, and still the last component is not visited behind one that stands too
deep. -/
theorem render_too_deep_unvisited :
    let host : Host :=
      ⟨fun _ _ _ _ => .fail .notCallable, fun _ => .identity, 0, ⟨.first, none⟩, 0⟩
    let components : ComponentTable := [(.text "Box", .entry ⟨.text "div", .identity⟩)]
    let e : Engine := ⟨⟨[], [], [], components⟩, .standard, none⟩
    let leaf (name : String) : Value := .map [(.text "type", .text "Box"), (.text "id", .text name)]
    let children : List Value := [leaf "a", Model.laden 254, leaf "b"]
    let page : Value := .map [(.text "type", .text "Box"), (.text "children", .list children)]
    (e.renderer host).TransformsRenderNothing ∧
      (e.renderer host).TransformsReturn host.depth page ∧
      (e.renderer host).LiveAt page [2] (leaf "b") ∧
      e.invocations host page .null = [page, leaf "a"] := by
  intro host components e leaf children page
  let r := e.renderer host
  have hr : r.TransformsRenderNothing := by
    apply transformsRenderNothing_of_entries
    intro p hp
    obtain rfl := List.mem_singleton.1 hp
    exact ⟨_, rfl, fun _ _ => rfl⟩
  have ht : r.TransformsReturn host.depth page := by
    apply transformsReturn_of_identity
    intro p hp
    obtain rfl := List.mem_singleton.1 hp
    exact ⟨.text "div", rfl⟩
  have hw : (Model.laden 254).wire = .error .tooDeep :=
    Value.wire_laden_eq_error_iff.2 ⟨rfl, by decide⟩
  refine ⟨hr, ht, ⟨.child rfl rfl rfl (.here _), rfl⟩, ?_⟩
  have hsplit : r.order page = [([], page), ([0], leaf "a")] ++
      ([1], Model.laden 254) :: [([2], leaf "b")] := by
    have hleaf (name : String) : r.order (leaf name) = [([], leaf name)] := order_of_leaf rfl rfl
    have hs : sourceChildren page = some children := rfl
    rw [order_of_children rfl hs]
    simp only [children, orderAll, hleaf, order_of_wire_error hw, List.map_cons, List.map_nil,
      List.cons_append, List.nil_append]
  have hq := e.events_resolveStyle host
  have hpass (component : Entries) (hs : component.get "style" = .null)
      (ht : component.get "type" = .text "Box") : r.PassesAt (.map component) := by
    have he : r.entryOf? (component.get "type") = .ok (some ⟨.text "div", .identity⟩) := by
      rw [ht]
      rfl
    have hruns : r.Runs (.map component) component ⟨.text "div", .identity⟩ :=
      ⟨rfl, he, none, by rw [style?, hs]; rfl⟩
    exact passes_of_runs hq hruns rfl rfl
  have hbefore : ∀ q ∈ [([], page), ([0], leaf "a")], r.PassesAt q.2 := by
    intro q hq
    simp only [List.mem_cons, List.not_mem_nil, or_false] at hq
    rcases hq with rfl | rfl <;> exact hpass _ rfl rfl
  obtain ⟨hevents, hfail⟩ := visit_watched_of_blocked hq (.unwritten hw)
  have hrun : (r.watched.renderWithin host.depth page .null).events.map Except.ok = _ :=
    (runs_of_stop hq hr .null hsplit hbefore hfail).2
  rw [hevents, List.map_nil, List.append_nil] at hrun
  exact map_ok_injective hrun

end Engine
end ViewDoc
