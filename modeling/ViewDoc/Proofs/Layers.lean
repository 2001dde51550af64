import ViewDoc.Proofs.PlainForms
import ViewDoc.Proofs.Rendering

/-!
The props of a rendered node: the component's own, the resolved style, the props of the transform
and the key, laid over each other.

What a name holds comes from the last of them that has it. It stands where it first came.
-/

namespace ViewDoc

namespace Table

variable {β : Type}

theorem get?_cons (k : Value) (x : β) (rest : Table β) (name : String) :
    get? ((k, x) :: rest) name = if k.equal (.text name) then some x else get? rest name := by
  rw [get?, find?, List.find?_cons]
  cases k.equal (.text name) <;> rfl

/-- Picking entries by their keys keeps what a name holds, or takes it away. -/
theorem get?_filter {t : Table β} {p : Value → Bool} {name : String} {b : Bool}
    (h : ∀ key : Value, key.equal (.text name) = true → p key = b) :
    get? (t.filter fun e => p e.1) name = if b then get? t name else none := by
  induction t with
  | nil => cases b <;> rfl
  | cons e rest ih =>
    obtain ⟨k, x⟩ := e
    rw [List.filter_cons, get?_cons]
    cases hk : k.equal (.text name) with
    | true =>
      rw [h k hk]
      cases b with
      | true => simp [get?_cons, hk]
      | false => simpa using ih
    | false =>
      cases p k with
      | true => simpa [get?_cons, hk] using ih
      | false => simpa using ih

theorem lastWrite?_of_isDistinct {writes : Table β} (h : IsDistinct writes) (name : String) :
    lastWrite? (fun key => key.equal (.text name)) writes = get? writes name := by
  induction writes with
  | nil => rfl
  | cons e rest ih =>
    obtain ⟨k, x⟩ := e
    obtain ⟨hnew, hrest⟩ := List.pairwise_cons.1 h
    rw [lastWrite?_cons, ih hrest, get?_cons]
    cases hk : k.equal (.text name) with
    | false => exact Option.or_none
    | true =>
      have hnone : get? rest name = none := by
        rw [get?, find?, Option.map_eq_none_iff, List.find?_eq_none]
        intro e he hname
        have hne := hnew e he
        rw [Value.equal_of_equal_text hk hname] at hne
        cases hne
      rw [hnone]
      rfl

/-- Where no key comes twice, those are added that do not equal one that is there. -/
theorem addKeys_of_pairwise {keys more : List Value}
    (h : more.Pairwise fun a b => a.equal b = false) :
    addKeys keys more = keys ++ more.filter fun k => !keys.any (·.equal k) := by
  induction more generalizing keys with
  | nil => exact (List.append_nil keys).symm
  | cons k more ih =>
    obtain ⟨hnew, hrest⟩ := List.pairwise_cons.1 h
    rw [addKeys_cons, ih hrest, List.filter_cons]
    cases hk : keys.any (·.equal k) with
    | true => rfl
    | false =>
      have hsame : (more.filter fun k' => !(keys ++ [k]).any (·.equal k')) =
          more.filter fun k' => !keys.any (·.equal k') := by
        apply List.filter_congr
        intro k' hk'
        rw [List.any_append, List.any_cons, hnew k' hk']
        simp
      simp only [Bool.false_eq_true, if_false, Bool.not_false, if_true, hsame]
      exact List.append_assoc keys [k] _

end Table

namespace Renderer

open Table

variable {r : Renderer}

/-! ### Own props -/

/-- Whether a key is one of the names that a component uses itself. -/
def isReserved (key : Value) : Bool := reservedNames.any fun name => key.equal (.text name)

theorem keys_ownProps (component : Entries) :
    (ownProps component).keys = component.keys.filter fun key => !isReserved key := by
  rw [ownProps, Table.keys, Table.keys, List.filter_map]
  rfl

theorem isReserved_of_equal {key : Value} {name : String} (h : key.equal (.text name) = true) :
    isReserved key = decide (name ∈ reservedNames) := by
  rw [isReserved, Bool.eq_iff_iff, List.any_eq_true, decide_eq_true_eq]
  constructor
  · rintro ⟨reserved, hmem, hkey⟩
    have hname := Value.equal_text_iff.1 h
    have hreserved := Value.equal_text_iff.1 hkey
    obtain rfl : name = reserved := Option.some.inj (hname.symm.trans hreserved)
    exact hmem
  · exact fun hmem => ⟨name, hmem, h⟩

theorem get?_ownProps (component : Entries) (name : String) :
    Table.get? (ownProps component) name =
      if name ∈ reservedNames then none else Table.get? component name := by
  have hpick : Table.get? (ownProps component) name =
      if !decide (name ∈ reservedNames) then Table.get? component name else none :=
    get?_filter (p := fun key => !isReserved key) fun key hkey => by rw [isReserved_of_equal hkey]
  rw [hpick]
  by_cases h : name ∈ reservedNames <;> simp [h]

/-! ### The layers -/

/-- The style as an entry of its own, if there is one. -/
def styleLayer (style : Option Value) : Entries := (style.map fun s => (.text "style", s)).toList

theorem mergeProps_eq_update (own : Entries) (style : Option Value) (parsed : Entries)
    (key : Value) : mergeProps own style parsed key =
      Table.update own (styleLayer style ++ parsed ++ [(.text "key", key)]) := by
  rw [mergeProps, Table.update_append, Table.update_append]
  cases style <;> rfl

/-- What a name holds comes from the last layer that has it. -/
theorem get?_mergeProps (own : Entries) (style : Option Value) {parsed : Entries}
    (h : Table.IsDistinct parsed) (key : Value) (name : String) :
    Table.get? (mergeProps own style parsed key) name =
      if name = "key" then some key
      else (Table.get? parsed name).or (if name = "style" then style.or (Table.get? own name)
        else Table.get? own name) := by
  rw [mergeProps, Table.get?_insert, Table.get?_update, lastWrite?_of_isDistinct h,
    Value.equal_text]
  have hstyled : Table.get? (style.elim own fun s => Table.insert own (.text "style") s) name =
      if name = "style" then style.or (Table.get? own name) else Table.get? own name := by
    cases style with
    | none => simp
    | some s =>
      change Table.get? (Table.insert own (.text "style") s) name = _
      rw [Table.get?_insert, Value.equal_text]
      by_cases hname : name = "style" <;> simp [hname]
  rw [hstyled]
  by_cases hname : name = "key" <;> simp [hname]

/-- The keys of props in their order: the component's own, the style, the new ones of the transform
and the key, unless it came before. -/
def keyOrder (component : Entries) (styled : Bool) (parsed : Entries) : List Value :=
  let placed := (component.keys.filter fun key => !isReserved key) ++
    if styled then [.text "style"] else []
  let laid := placed ++ parsed.keys.filter fun key => !placed.any (·.equal key)
  if laid.any (·.equal (.text "key")) then laid else laid ++ [.text "key"]

theorem keys_mergeProps (component : Entries) (style : Option Value) {parsed : Entries}
    (h : Table.IsDistinct parsed) (key : Value) :
    Table.keys (mergeProps (ownProps component) style parsed key) =
      keyOrder component style.isSome parsed := by
  have hstyled : Table.keys (style.elim (ownProps component) fun s =>
      Table.insert (ownProps component) (.text "style") s) =
        (component.keys.filter fun key => !isReserved key) ++
          if style.isSome then [.text "style"] else [] := by
    cases style with
    | none => exact (keys_ownProps component).trans (List.append_nil _).symm
    | some s =>
      have hnew : Table.contains (ownProps component) (.text "style") = false := by
        rw [Table.contains_text, get?_ownProps, if_pos (by decide)]
        rfl
      change Table.keys (Table.insert (ownProps component) (.text "style") s) = _
      rw [Table.keys_insert, hnew, keys_ownProps]
      rfl
  rw [mergeProps, Table.keys_insert, Table.contains_eq_any_keys, Table.keys_update, hstyled]
  change (if (addKeys _ parsed.keys).any _ then addKeys _ parsed.keys else
    addKeys _ parsed.keys ++ _) = _
  rw [addKeys_of_pairwise (isDistinct_iff.1 h)]
  rfl

/-- The component's own props, its style, the props of its transform and its key, laid over each
other. -/
structure Layered (component : Entries) (style : Option Value) (parsed : Entries) (key : Value)
    (props : Entries) : Prop where
  ofKey : props.get? "key" = some key
  ofParsed : ∀ name x, name ≠ "key" → parsed.get? name = some x → props.get? name = some x
  ofStyle : parsed.get? "style" = none → props.get? "style" = style
  ofOwn : ∀ name, name ≠ "key" → name ∉ reservedNames → parsed.get? name = none →
    props.get? name = component.get? name
  absent : ∀ name ∈ ["type", "children"], parsed.get? name = none → props.get? name = none
  order : props.keys = keyOrder component style.isSome parsed
  /-- Keys that are no names follow the same law. -/
  written : Table.Written (ownProps component)
    (styleLayer style ++ parsed ++ [(.text "key", key)]) props

theorem layered_mergeProps (component : Entries) (style : Option Value) {parsed : Entries}
    (h : Table.IsDistinct parsed) (key : Value) :
    Layered component style parsed key (mergeProps (ownProps component) style parsed key) where
  ofKey := by rw [get?_mergeProps _ _ h, if_pos rfl]
  ofParsed := by
    intro name x hname hx
    rw [get?_mergeProps _ _ h, if_neg hname, hx, Option.some_or]
  ofStyle := by
    intro hnone
    rw [get?_mergeProps _ _ h, if_neg (by decide), hnone, Option.none_or, if_pos rfl, get?_ownProps,
      if_pos (by decide), Option.or_none]
  ofOwn := by
    intro name hname hown hnone
    have hstyle : name ≠ "style" := by
      rintro rfl
      exact hown (by decide)
    rw [get?_mergeProps _ _ h, if_neg hname, hnone, Option.none_or, if_neg hstyle, get?_ownProps,
      if_neg hown]
  absent := by
    intro name hmem hnone
    have hother : name ≠ "key" ∧ name ≠ "style" ∧ name ∈ reservedNames := by
      rcases List.mem_cons.1 hmem with rfl | hmem
      · decide
      · rw [List.mem_singleton.1 hmem]
        decide
    obtain ⟨hkey, hstyle, hreserved⟩ := hother
    rw [get?_mergeProps _ _ h, if_neg hkey, hnone, Option.none_or, if_neg hstyle, get?_ownProps,
      if_pos hreserved]
  order := keys_mergeProps component style h key
  written := by
    rw [mergeProps_eq_update]
    exact Table.written_update _ _

end Renderer

/-- The props in what a transform returns: in a result of its own, or in a map under one name or
else the other. -/
inductive Transformed.Carries : Transformed → Entries → Prop
  | result (props : Entries) : Carries (.props (.map props)) props
  | mapping {entries props : Entries} : entries.get? "parsed_props" = some (.map props) →
      Carries (.value (.map entries)) props
  | otherName {entries props : Entries} : entries.get? "parsed_props" = none →
      entries.get? "parsedProps" = some (.map props) → Carries (.value (.map entries)) props

theorem Transformed.parsedProps_of_carries {t : Transformed} {props : Entries}
    (h : t.Carries props) : t.parsedProps = .ok props := by
  have hgiven (v : Value) (hv : v = .map props) :
      (if v.truthy then Entries.ofValue v else .ok []) = Except.ok props := by
    subst hv
    cases props <;> rfl
  cases h with
  | result => rfl
  | mapping h =>
    apply hgiven
    rw [h]
    rfl
  | otherName hnone h =>
    apply hgiven
    rw [hnone, Entries.get, h]
    rfl

namespace Engine

open Renderer

variable (host : Host) (e : Engine)

/-- The resolved style of a component that has one. -/
def styleOf (component : Entries) : Except Failure (Option Value) :=
  if (component.get "style").isNull then .ok none
  else (e.resolveStyle (component.get "style")).map fun style => some (.map style)

theorem result_style? (component : Entries) :
    ((e.renderer host).style? component).result = e.styleOf component := by
  rw [style?, styleOf]
  cases (component.get "style").isNull with
  | true => rfl
  | false =>
    simp only [Bool.false_eq_true, if_false, Outcome.result_bind, renderer, Outcome.result_liftM]
    cases e.resolveStyle (component.get "style") <;> rfl

/-- The props of a rendered node are its component's own props, the resolved style, the props of the
transform and the key, laid over each other. -/
theorem render_lays_props {c : Value} {component : Entries} {entry : ComponentEntry}
    {transformed : Transformed} {parsed : Entries} (hc : c.wire = .ok (.map component))
    (he : (e.renderer host).entryOf? (component.get "type") = .ok (some entry))
    (ht : (entry.transform ((e.renderer host).context ((e.renderer host).renderNested host.depth)
      component)).result = .ok transformed)
    (hp : transformed.parsedProps = .ok parsed) (hd : Table.IsDistinct parsed) (key : Value) :
    let props (style : Option Value) := mergeProps (ownProps component) style parsed key
    ((e.render host c key).result = (e.styleOf component).bind fun style =>
      ((e.renderer host).renderedChildren host.depth component).map fun children =>
        some ⟨entry.element, .map (props style), children⟩) ∧
    (∀ style, Layered component style parsed key (props style)) ∧
    ∀ other, transformed.Carries other → other = parsed := by
  refine ⟨?_, fun style => layered_mergeProps component style hd key, ?_⟩
  · rw [← e.result_style? host]
    exact result_renderWithin_of_transformed hc he ht hp key
  · intro other hother
    rw [Transformed.parsedProps_of_carries hother] at hp
    exact Except.ok.inj hp

/-- Names that several layers have: the transform wins over the style and the component, the key
over all, and each stands where it first came. -/
theorem render_lays_props_overlapping :
    let host : Host :=
      ⟨fun _ _ _ _ => .fail .notCallable, fun _ => .identity, 0, ⟨.first, none⟩, 0⟩
    let parsed : Entries := [(.text "style", .int 9), (.text "b", .int 3),
      (.text "children", .text "none"), (.text "c", .int 4)]
    let transformed : Transformed := .value (.map [(.text "parsedProps", .map parsed)])
    let entry : ComponentEntry := ⟨.text "div", fun _ => return transformed⟩
    let e : Engine := ⟨⟨[], [], [], [(.text "Box", .entry entry)]⟩, .standard, none⟩
    let component : Entries := [(.text "key", .text "own"), (.text "a", .int 1),
      (.text "type", .text "Box"), (.text "style", .map []), (.text "b", .int 2)]
    let props : Entries := [(.text "key", .int 7), (.text "a", .int 1), (.text "b", .int 3),
      (.text "style", .int 9), (.text "children", .text "none"), (.text "c", .int 4)]
    transformed.parsedProps = .ok parsed ∧ Table.IsDistinct parsed ∧
      (e.render host (.map component) (.int 7)).result =
        .ok (some ⟨.text "div", .map props, none⟩) ∧
      Layered component (some (.map [])) parsed (.int 7) props := by
  intro host parsed transformed entry e component props
  have hp : transformed.parsedProps = .ok parsed := rfl
  have hd : Table.IsDistinct parsed := by
    simp [parsed, Table.IsDistinct]
  have hmerged : mergeProps (ownProps component) (some (.map [])) parsed (.int 7) = props := rfl
  have hc : (Value.map component).wire = .ok (.map component) := rfl
  have he : (e.renderer host).entryOf? (component.get "type") = .ok (some entry) := rfl
  obtain ⟨hresult, hlayered, -⟩ := e.render_lays_props host hc he rfl hp hd (.int 7)
  have hlaid := hlayered (some (.map []))
  simp only [hmerged] at hlaid
  exact ⟨hp, hd, hresult, hlaid⟩

end Engine
end ViewDoc
