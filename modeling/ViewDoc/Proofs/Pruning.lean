import ViewDoc.Proofs.Rendering
import ViewDoc.Proofs.Styles

/-!
Rendering prunes: the tree of nodes is the tree of components without what is not live, and the keys
on the way to a node are the positions on the way to the component it was drawn from.

Every live component is drawn once if its ancestors are live. Rendering only fails at a component
that stands too deep to be written or whose style cannot be resolved.
-/

namespace ViewDoc

open Renderer

/-- Goes down from a node by positions among the nodes that are there, and passes keys on the
way. -/
inductive Node.Reaches : Node → List Nat → List Value → Node → Prop
  | here (n : Node) : Reaches n [] [] n
  | child {n m t : Node} {nodes : List (Option Node)} {q : Nat} {qs : List Nat} {k : Value}
      {ks : List Value} : n.children = some nodes → nodes[q]? = some (some m) → m.key = .ok k →
      Reaches m qs ks t → Reaches n (q :: qs) (k :: ks) t

namespace Renderer

variable {r : Renderer} {limit : Nat}

/-- The live components among children, with their positions. -/
def liveChildren (r : Renderer) (items : List Value) : List (Value × Nat) :=
  items.zipIdx.filter fun p => r.isLive p.1

/-- Rendering a component under a key gives a node. -/
def Draws (r : Renderer) (limit : Nat) (c key : Value) (n : Node) : Prop :=
  (r.renderWithin limit c key).result = .ok (some n)

/-- A node has a list of children if its component has one: a node for each child that is live, in
order and under its position, so that keys grow, and nothing for the others. -/
def Mirrors (r : Renderer) (limit : Nat) (c : Value) (n : Node) : Prop :=
  match sourceChildren c with
  | none => n.children = none
  | some items => (r.liveChildren items).Pairwise (fun p q => p.2 < q.2) ∧
      ∃ nodes, n.children = some (nodes.map some) ∧
        List.Forall₂ (fun p m => m.key = .ok (.int p.2) ∧ r.Draws limit p.1 (.int p.2) m)
          (r.liveChildren items) nodes

theorem isLive_of_draws {c key : Value} {n : Node} (h : r.Draws limit c key n) :
    r.isLive c = true := by
  by_contra hc
  rw [Bool.not_eq_true] at hc
  cases eq_none_of_not_live hc h

theorem mem_liveChildren {items : List Value} {d : Value} {i : Nat} :
    (d, i) ∈ r.liveChildren items ↔ items[i]? = some d ∧ r.isLive d = true := by
  simp [liveChildren, List.mem_filter, List.mem_zipIdx_iff_getElem?]

theorem pairwise_zipIdx (items : List Value) : items.zipIdx.Pairwise fun p q => p.2 < q.2 := by
  rw [List.pairwise_iff_getElem]
  intro i j hi hj hij
  simpa using hij

theorem pairwise_liveChildren (r : Renderer) (items : List Value) :
    (r.liveChildren items).Pairwise fun p q => p.2 < q.2 := (pairwise_zipIdx items).filter _

theorem exists_of_finalProps {nested : Value → Value → Outcome (Option Node)}
    {component props : Entries} {entry : ComponentEntry} {key : Value}
    (h : (r.finalProps nested component entry key).result = .ok props) :
    ∃ style parsed, (r.style? component).result = .ok style ∧
      props = mergeProps (ownProps component) style parsed key := by
  simp only [finalProps, Outcome.result_bind, bind_eq_ok_iff, Outcome.result_pure] at h
  obtain ⟨style, hs, transformed, -, parsed, -, h⟩ := h
  exact ⟨style, parsed, hs, (Except.ok.inj h).symm⟩

/-- What rendering a live component gives is a node with the resolved style, its key and the nodes
of its children. -/
theorem exists_of_isLive {c key : Value} {component : Entries} {out : Option Node}
    (hl : r.isLive c = true) (hc : c.wire = .ok (.map component))
    (h : (r.renderWithin limit c key).result = .ok out) :
    ∃ n style, out = some n ∧ (r.style? component).result = .ok style ∧ n.key = .ok key ∧
      r.renderedChildren limit component = .ok n.children := by
  rw [result_renderWithin_map hc, bind_eq_ok_iff] at h
  obtain ⟨found, he, h⟩ := h
  cases found with
  | none =>
    rw [(entryOf?_eq_none_iff hc).1 he] at hl
    cases hl
  | some entry =>
    obtain ⟨props, hprops, h⟩ := bind_eq_ok_iff.1 h
    obtain ⟨children, hchildren, h⟩ := map_eq_ok_iff.1 h
    obtain ⟨style, parsed, hstyle, rfl⟩ := exists_of_finalProps hprops
    exact ⟨_, style, h.symm, hstyle, key_of_mergeProps .., hchildren⟩

theorem exists_draws_of_isLive {c key : Value} {out : Option Node} (hc : r.isLive c = true)
    (h : (r.renderWithin limit c key).result = .ok out) :
    ∃ n, out = some n ∧ r.Draws limit c key n := by
  obtain ⟨component, hw⟩ := exists_wire_of_isLive hc
  obtain ⟨n, -, rfl, -⟩ := exists_of_isLive hc hw h
  exact ⟨n, rfl, h⟩

theorem key_of_draws {c key : Value} {n : Node} (h : r.Draws limit c key n) :
    n.key = .ok key := by
  have hl := isLive_of_draws h
  obtain ⟨component, hc⟩ := exists_wire_of_isLive hl
  obtain ⟨n', -, hn, -, hk, -⟩ := exists_of_isLive hl hc h
  rw [Option.some.inj hn, hk]

/-- What is dropped from a list together with what stands beside it in another. -/
theorem forall₂_filter_reduceOption {α β : Type} {p : α → Bool} {R : α → Option β → Prop}
    {S : α → β → Prop} {as : List α} {outs : List (Option β)} (h : List.Forall₂ R as outs)
    (hno : ∀ a o, R a o → p a = false → o = none)
    (hyes : ∀ a o, R a o → p a = true → ∃ b, o = some b ∧ S a b) :
    List.Forall₂ S (as.filter p) outs.reduceOption := by
  induction h with
  | nil => exact .nil
  | @cons a o as outs hr _ ih =>
    cases ha : p a with
    | false =>
      obtain rfl := hno a o hr ha
      rw [List.reduceOption_cons_of_none, List.filter_cons_of_neg (by simp [ha])]
      exact ih
    | true =>
      obtain ⟨b, rfl, hb⟩ := hyes a o hr ha
      rw [List.reduceOption_cons_of_some, List.filter_cons_of_pos ha]
      exact .cons hb ih

theorem forall₂_of_renderAll {items : List Value} {nodes : List Node}
    (h : (r.renderAll limit 0 items).result = .ok nodes) :
    List.Forall₂ (fun p m => m.key = .ok (.int p.2) ∧ r.Draws limit p.1 (.int p.2) m)
      (r.liveChildren items) nodes := by
  rw [result_renderAll, map_eq_ok_iff] at h
  obtain ⟨outs, ho, rfl⟩ := h
  refine forall₂_filter_reduceOption (mapM_eq_ok_iff.1 ho) ?_ ?_
  · intro p out hp hl
    exact eq_none_of_not_live hl hp
  · intro p out hp hl
    obtain ⟨m, rfl, hd⟩ := exists_draws_of_isLive hl hp
    exact ⟨m, rfl, key_of_draws hd, hd⟩

theorem mirrors_of_draws {c key : Value} {n : Node} (h : r.Draws limit c key n) :
    r.Mirrors limit c n := by
  have hl := isLive_of_draws h
  obtain ⟨component, hc⟩ := exists_wire_of_isLive hl
  obtain ⟨n', -, hn, -, -, hchildren⟩ := exists_of_isLive hl hc h
  obtain rfl := Option.some.inj hn
  rw [Mirrors, sourceChildren_of_wire hc]
  rw [renderedChildren] at hchildren
  cases hs : childrenOf component with
  | none =>
    rw [hs] at hchildren
    exact (Except.ok.inj hchildren).symm
  | some items =>
    rw [hs] at hchildren
    obtain ⟨nodes, hnodes, hchildren⟩ := map_eq_ok_iff.1 hchildren
    exact ⟨pairwise_liveChildren r items, nodes, hchildren.symm, forall₂_of_renderAll hnodes⟩

/-- Rendering a component renders each of its children, if it is live. -/
theorem exists_ok_of_child {c d key : Value} {items : List Value} {i : Nat} {out : Option Node}
    (h : (r.renderWithin limit c key).result = .ok out) (hl : r.isLive c = true)
    (hs : sourceChildren c = some items) (hi : items[i]? = some d) :
    ∃ out, (r.renderWithin limit d (.int i)).result = .ok out := by
  obtain ⟨component, hc⟩ := exists_wire_of_isLive hl
  obtain ⟨n, -, -, -, -, hchildren⟩ := exists_of_isLive hl hc h
  rw [sourceChildren_of_wire hc] at hs
  rw [renderedChildren, hs] at hchildren
  obtain ⟨nodes, hnodes, -⟩ := map_eq_ok_iff.1 hchildren
  rw [result_renderAll, map_eq_ok_iff] at hnodes
  obtain ⟨outs, houts, -⟩ := hnodes
  have hmem : (d, i) ∈ items.zipIdx := List.mem_zipIdx_iff_getElem?.2 hi
  obtain ⟨out, -, hd⟩ := exists_of_mapM_eq_ok houts hmem
  exact ⟨out, hd⟩

theorem exists_ok_of_reachedAt {c s : Value} {is : List Nat} (h : r.ReachedAt c is s)
    {key : Value} {out : Option Node} (ho : (r.renderWithin limit c key).result = .ok out) :
    ∃ key out, (r.renderWithin limit s key).result = .ok out := by
  induction h generalizing key out with
  | here c => exact ⟨key, out, ho⟩
  | child hl hs hi _ ih =>
    obtain ⟨out, hd⟩ := exists_ok_of_child ho hl hs hi
    exact ih hd

/-- The node of a child that is live, and the place where it stands. -/
theorem exists_child_of_mirrors {c d : Value} {n : Node} {items : List Value} {i : Nat}
    (hm : r.Mirrors limit c n) (hs : sourceChildren c = some items) (hi : items[i]? = some d)
    (hd : r.isLive d = true) : ∃ (nodes : List (Option Node)) (q : Nat) (m : Node),
      n.children = some nodes ∧ nodes[q]? = some (some m) ∧ m.key = .ok (.int i) ∧
      r.Draws limit d (.int i) m := by
  simp only [Mirrors, hs] at hm
  obtain ⟨-, nodes, hn, hf⟩ := hm
  obtain ⟨q, hq, he⟩ := List.getElem_of_mem (mem_liveChildren.2 ⟨hi, hd⟩)
  have hq' : q < nodes.length := hf.length_eq ▸ hq
  have h := hf.get hq hq'
  simp only [List.get_eq_getElem, he] at h
  exact ⟨_, q, nodes[q], hn, by simp [hq'], h.1, h.2⟩

/-- The child that a node among the children was drawn from. -/
theorem exists_source_of_mirrors {c : Value} {n m : Node} {nodes : List (Option Node)} {q : Nat}
    (hm : r.Mirrors limit c n) (hn : n.children = some nodes) (hq : nodes[q]? = some (some m)) :
    ∃ items d i, sourceChildren c = some items ∧ (r.liveChildren items)[q]? = some (d, i) ∧
      m.key = .ok (.int i) ∧ r.Draws limit d (.int i) m := by
  unfold Mirrors at hm
  split at hm
  · rw [hn] at hm
    cases hm
  · rename_i items hs
    obtain ⟨-, drawn, hd, hf⟩ := hm
    obtain rfl : nodes = drawn.map some := by
      rw [hn] at hd
      exact Option.some.inj hd
    rw [List.getElem?_map, Option.map_eq_some_iff] at hq
    obtain ⟨m', hq, hm'⟩ := hq
    obtain rfl := Option.some.inj hm'
    obtain ⟨hlt, he⟩ := List.getElem?_eq_some_iff.1 hq
    have hlt' : q < (r.liveChildren items).length := hf.length_eq ▸ hlt
    have h := hf.get hlt' hlt
    simp only [List.get_eq_getElem, he] at h
    exact ⟨items, _, _, hs, List.getElem?_eq_getElem hlt', h.1, h.2⟩

/-- Keys of siblings grow, so that a key stands in one place only. -/
theorem liveChildren_getElem?_inj {items : List Value} {q q' i : Nat} {d d' : Value}
    (h : (r.liveChildren items)[q]? = some (d, i))
    (h' : (r.liveChildren items)[q']? = some (d', i)) : q = q' := by
  obtain ⟨hq, he⟩ := List.getElem?_eq_some_iff.1 h
  obtain ⟨hq', he'⟩ := List.getElem?_eq_some_iff.1 h'
  have hp := List.pairwise_iff_getElem.1 (pairwise_liveChildren r items)
  rcases Nat.lt_trichotomy q q' with hlt | heq | hlt
  · have := hp q q' hq hq' hlt
    simp [he, he'] at this
  · exact heq
  · have := hp q' q hq' hq hlt
    simp [he, he'] at this

/-- Each live component below live ones is drawn, and the keys on the way to its node are the
positions on the way to it. -/
theorem exists_reaches_of_liveAt {c s key : Value} {n : Node}
    {is : List Nat} (hn : r.Draws limit c key n) (h : r.LiveAt c is s) :
    ∃ qs m, n.Reaches qs (is.map fun i => .int i) m ∧
      r.Draws limit s ((is.map fun i => .int i).getLast?.getD key) m := by
  obtain ⟨h, hl⟩ := h
  induction h generalizing key n with
  | here _ => exact ⟨[], n, .here n, hn⟩
  | child _ hs hi hd ih =>
    obtain ⟨nodes, q, m, hc, hq, hk, hm⟩ :=
      exists_child_of_mirrors (mirrors_of_draws hn) hs hi (hd.isLive hl)
    obtain ⟨qs, t, hr, hdr⟩ := ih hm hl
    refine ⟨q :: qs, t, .child hc hq hk hr, ?_⟩
    rw [List.map_cons, List.getLast?_cons]
    exact hdr

/-- A node below another one was drawn from the component at the positions that its keys say. -/
theorem exists_liveAt_of_reaches {c key : Value} {n m : Node}
    {qs : List Nat} {ks : List Value} (hn : r.Draws limit c key n) (h : n.Reaches qs ks m) :
    ∃ is s, ks = is.map (fun i => .int i) ∧ r.LiveAt c is s ∧
      r.Draws limit s (ks.getLast?.getD key) m := by
  induction h generalizing c key with
  | here n => exact ⟨[], c, rfl, ⟨.here c, isLive_of_draws hn⟩, hn⟩
  | @child n m t nodes q qs k ks hc hq hk _ ih =>
    obtain ⟨items, d, i, hs, hd, hk', hm⟩ :=
      exists_source_of_mirrors (mirrors_of_draws hn) hc hq
    obtain rfl : k = .int i := by
      rw [hk] at hk'
      exact Except.ok.inj hk'
    obtain ⟨is, s, rfl, hl, hdr⟩ := ih hm
    obtain ⟨hi, -⟩ := mem_liveChildren.1 (List.mem_of_getElem? hd)
    refine ⟨i :: is, s, rfl, ⟨.child (isLive_of_draws hn) hs hi hl.1, hl.2⟩, ?_⟩
    rw [List.getLast?_cons]
    exact hdr

theorem eq_of_reaches {c key : Value} {n m m' : Node}
    {qs qs' : List Nat} {ks : List Value} (hn : r.Draws limit c key n) (h : n.Reaches qs ks m)
    (h' : n.Reaches qs' ks m') : qs = qs' := by
  induction h generalizing c key qs' with
  | here n =>
    cases h'
    rfl
  | @child n m t nodes q qs k ks hc hq hk _ ih =>
    obtain _ | ⟨hc', hq', hk', hr'⟩ := h'
    rename_i x nodes' q' qs'
    obtain rfl : nodes = nodes' := by
      rw [hc] at hc'
      exact Option.some.inj hc'
    have hm := mirrors_of_draws hn
    obtain ⟨items, d, i, hs, hd, hki, hdr⟩ := exists_source_of_mirrors hm hc hq
    obtain ⟨items', d', i', hs', hd', hki', -⟩ := exists_source_of_mirrors hm hc hq'
    obtain rfl : items = items' := by
      rw [hs] at hs'
      exact Option.some.inj hs'
    obtain rfl : i = i' := by
      rw [hk] at hki
      rw [hk'] at hki'
      have he := (Except.ok.inj hki).symm.trans (Except.ok.inj hki')
      exact Int.ofNat.inj (Value.int.inj he)
    obtain rfl := liveChildren_getElem?_inj hd hd'
    obtain rfl : m = x := by
      rw [hq] at hq'
      exact Option.some.inj (Option.some.inj hq')
    rw [ih hdr hr']

end Renderer

namespace Engine

variable (host : Host) (e : Engine)

/-- Rendering stops at a component: it has no plain form, or it is live and its style cannot be
resolved. -/
inductive HaltsAt (host : Host) (e : Engine) (c : Value) : Failure → Prop
  | depth {f : Failure} : c.wire = .error f → HaltsAt host e c f
  | style {component : Entries} {f : Failure} : (e.renderer host).isLive c = true →
      c.wire = .ok (.map component) →
      Style.Fails e.registries.styles (component.get "style") f → HaltsAt host e c f

variable {host e}

theorem HaltsAt.tooDeep_or_tooManyDigits {c : Value} {f : Failure} (h : e.HaltsAt host c f) :
    f = .tooDeep ∨ f = .tooManyDigits := by
  cases h with
  | depth h => exact .inl (Value.eq_tooDeep_of_wire h)
  | style _ _ h => exact h.tooDeep_or_tooManyDigits

theorem style?_eq_error_iff {component : Entries} {f : Failure} :
    ((e.renderer host).style? component).result = .error f ↔
      Style.Fails e.registries.styles (component.get "style") f := by
  rw [style?, ← @Style.resolve_eq_error_iff _ e.config.stylesByRoot.truthy]
  cases hn : (component.get "style").isNull with
  | true =>
    have hnull : component.get "style" = .null := by
      cases hv : component.get "style" <;> simp_all [Value.isNull]
    have hempty : Style.resolve e.registries.styles e.config.stylesByRoot.truthy .null = .ok [] :=
      rfl
    simp [hnull, hempty]
  | false =>
    simp only [Bool.false_eq_true, if_false, Outcome.result_bind, renderer, resolveStyle,
      Outcome.result_liftM]
    cases Style.resolve e.registries.styles e.config.stylesByRoot.truthy (component.get "style") <;>
      simp

theorem not_haltsAt_of_ok {c key : Value} {out : Option Node} {limit : Nat}
    (h : ((e.renderer host).renderWithin limit c key).result = .ok out) (f : Failure) :
    ¬ e.HaltsAt host c f := by
  intro hf
  cases hf with
  | depth hw =>
    rw [renderWithin_of_wire_error hw] at h
    cases h
  | style hl hw hs =>
    obtain ⟨n, style, -, hstyle, -⟩ := exists_of_isLive hl hw h
    rw [style?_eq_error_iff.2 hs] at hstyle
    cases hstyle

/-- Once transforms return, rendering fails with what stops it at one of the components that it
comes to. -/
theorem exists_reachedAt_of_error {c key : Value} {f : Failure} {limit : Nat}
    (ht : (e.renderer host).TransformsReturn limit c)
    (h : ((e.renderer host).renderWithin limit c key).result = .error f) :
    ∃ is s, (e.renderer host).ReachedAt c is s ∧ e.HaltsAt host s f := by
  induction c using component_induction generalizing key with
  | _ c ih =>
    cases hw : c.wire with
    | error g =>
      rw [renderWithin_of_wire_error hw] at h
      obtain rfl := Except.error.inj h
      exact ⟨[], c, .here c, .depth hw⟩
    | ok w =>
      cases hl : (e.renderer host).isLive c with
      | false =>
        rw [renderWithin_of_not_live hw hl] at h
        cases h
      | true =>
        obtain ⟨component, entry, transformed, parsed, hc, he, hrun, hp⟩ := ht [] c ⟨.here c, hl⟩
        rw [result_renderWithin_of_transformed hc he hrun hp, bind_eq_error_iff] at h
        rcases h with h | ⟨style, -, h⟩
        · exact ⟨[], c, .here c, .style hl hc (style?_eq_error_iff.1 h)⟩
        rw [map_eq_error_iff, renderedChildren] at h
        split at h
        · cases h
        · rename_i items hs
          rw [← sourceChildren_of_wire hc] at hs
          rw [map_eq_error_iff, result_renderAll, map_eq_error_iff] at h
          obtain ⟨⟨d, i⟩, hmem, hd⟩ := exists_of_mapM_eq_error h
          have hi : items[i]? = some d := List.mem_zipIdx_iff_getElem?.1 hmem
          have hmem := List.mem_of_getElem? hi
          obtain ⟨is, s, hreach, hf⟩ := ih items hs d hmem (ht.child hl hs hi) hd
          exact ⟨i :: is, s, .child hl hs hi hreach, hf⟩

variable (host e)

/-- Rendering prunes what is not live and keeps positions as keys, unless it comes to a component
that stands too deep to be written or whose style cannot be resolved. -/
theorem render_prunes {c : Value} (key : Value)
    (ht : (e.renderer host).TransformsReturn host.depth c) :
    let r := e.renderer host
    let result := (e.render host c key).result
    ((∃ out, result = .ok out) ↔ ∀ is s, r.ReachedAt c is s → ∀ f, ¬ e.HaltsAt host s f) ∧
    (∀ f, result = .error f → (f = .tooDeep ∨ f = .tooManyDigits) ∧
      ∃ is s, r.ReachedAt c is s ∧ e.HaltsAt host s f) ∧
    ∀ out, result = .ok out → (out = none ↔ r.isLive c = false) ∧
      ∀ n, out = some n → n.key = .ok key ∧
        (∀ qs ks m, n.Reaches qs ks m → ∃ is s, ks = is.map (fun i => .int i) ∧
          r.LiveAt c is s ∧ r.Draws host.depth s (ks.getLast?.getD key) m ∧
          r.Mirrors host.depth s m) ∧
        ∀ is s, r.LiveAt c is s → ∃! qs, ∃ m, n.Reaches qs (is.map fun i => .int i) m ∧
          r.Draws host.depth s ((is.map fun i => .int i).getLast?.getD key) m := by
  intro r result
  refine ⟨⟨?_, ?_⟩, ?_, ?_⟩
  · intro h is s hreach
    obtain ⟨out, ho⟩ := h
    obtain ⟨key', out', hs⟩ := exists_ok_of_reachedAt hreach ho
    exact not_haltsAt_of_ok hs
  · intro h
    cases hr : result with
    | ok out => exact ⟨out, rfl⟩
    | error f =>
      obtain ⟨is, s, hreach, hf⟩ := exists_reachedAt_of_error ht hr
      exact absurd hf (h is s hreach f)
  · intro f hf
    obtain ⟨is, s, hreach, hs⟩ := exists_reachedAt_of_error ht hf
    exact ⟨hs.tooDeep_or_tooManyDigits, is, s, hreach, hs⟩
  intro out ho
  constructor
  · constructor
    · intro heq
      subst heq
      by_contra hl
      rw [Bool.not_eq_false] at hl
      obtain ⟨n, hn, -⟩ := exists_draws_of_isLive hl ho
      cases hn
    · intro hl
      exact eq_none_of_not_live hl ho
  intro n heq
  subst heq
  have hn : r.Draws host.depth c key n := ho
  refine ⟨key_of_draws hn, ?_, ?_⟩
  · intro qs ks m hm
    obtain ⟨is, s, rfl, hl, hd⟩ := exists_liveAt_of_reaches hn hm
    exact ⟨is, s, rfl, hl, hd, mirrors_of_draws hd⟩
  · intro is s hl
    obtain ⟨qs, m, hm, hd⟩ := exists_reaches_of_liveAt hn hl
    refine ⟨qs, ⟨m, hm, hd⟩, ?_⟩
    intro qs' h
    obtain ⟨m', hm', -⟩ := h
    exact eq_of_reaches hn hm' hm

/-- A page with a card, whose transform renders its header. -/
theorem render_prunes_page :
    let card : Transform := fun context => do
      let header ← context.services.render (Entries.get context.component "header") (.text "h")
      return .props (.map [(.text "header", (header.map Node.toValue).getD .null)])
    let components : ComponentTable := [(.text "Box", .entry ⟨.text "div", .identity⟩),
      (.text "Card", .entry ⟨.text "section", card⟩)]
    let host : Host :=
      ⟨fun _ _ _ _ => .fail .notCallable, fun _ => .identity, 0, ⟨.first, none⟩, 1⟩
    let e : Engine := ⟨⟨[], [], [], components⟩, .standard, none⟩
    let leaf : Value := .map [(.text "type", .text "Box")]
    let cardNode : Value := .map [(.text "type", .text "Card"), (.text "header", leaf),
      (.text "children", .tuple [.null, leaf])]
    let page : Value := .map [(.text "type", .text "Box"),
      (.text "children", .list [.int 5, .map [(.text "type", .text "Nope")], cardNode])]
    (e.renderer host).TransformsReturn host.depth page ∧
      ∃ n, (e.render host page .null).result = .ok (some n) ∧ n.key = .ok .null ∧
        ∃! qs, ∃ m, n.Reaches qs [.int 2, .int 1] m ∧
          (e.renderer host).Draws host.depth leaf (.int 1) m := by
  intro card components host e leaf cardNode page
  let r := e.renderer host
  let passes (s : Value) : Prop :=
    (r.isLive s = true → r.Returns host.depth s) ∧ ∀ f, ¬ e.HaltsAt host s f
  have hdead (s : Value) (hw : s.wire = .ok s) (hl : r.isLive s = false) : passes s := by
    refine ⟨fun h => absurd h (by simp [hl]), fun f hf => ?_⟩
    cases hf with
    | depth h => cases hw.symm.trans h
    | style h => cases hl.symm.trans h
  have hlive (component : Entries) (hs : component.get "style" = .null)
      (h : r.Returns host.depth (.map component)) : passes (.map component) := by
    refine ⟨fun _ => h, fun f hf => ?_⟩
    cases hf with
    | depth h => cases h
    | style _ hc h =>
      obtain rfl := Value.map.inj (Except.ok.inj hc)
      rw [hs] at h
      cases h with
      | depth h => cases h
      | entry h => cases h
  have hleaf : passes leaf := hlive _ rfl ⟨_, _, _, _, rfl, rfl, rfl, rfl⟩
  have hheader : ∃ n, (r.renderNested 1 leaf (.text "h")).result = .ok (some n) := by
    have h : (r.renderWithin 0 leaf (.text "h")).result = _ :=
      result_renderWithin_of_transformed rfl rfl rfl rfl _
    exact ⟨_, h⟩
  have hcard : passes cardNode := by
    obtain ⟨n, hn⟩ := hheader
    refine hlive _ rfl ⟨_, _, .props (.map [(.text "header", n.toValue)]), _, rfl, rfl, ?_, rfl⟩
    change (r.renderNested 1 leaf (.text "h") >>= _).result = _
    rw [Outcome.result_bind, hn]
    rfl
  have hall : ∀ is s, r.ReachedAt page is s → passes s := by
    have hnone (s : Value) (hs : sourceChildren s = none) (h : passes s) :
        ∀ is d, r.ReachedAt s is d → passes d :=
      forall_reachedAt_iff.2 ⟨h, fun _ items h => by cases hs.symm.trans h⟩
    have hbelow : ∀ is s, r.ReachedAt cardNode is s → passes s := by
      refine forall_reachedAt_iff.2 ⟨hcard, fun _ items h => ?_⟩
      obtain rfl := Option.some.inj (h.symm.trans (show sourceChildren cardNode = some _ from rfl))
      exact List.forall_mem_cons.2 ⟨hnone _ rfl (hdead _ rfl rfl),
        List.forall_mem_singleton.2 (hnone _ rfl hleaf)⟩
    have hpage : passes page := hlive _ rfl ⟨_, _, _, _, rfl, rfl, rfl, rfl⟩
    refine forall_reachedAt_iff.2 ⟨hpage, fun _ items h => ?_⟩
    obtain rfl := Option.some.inj (h.symm.trans (show sourceChildren page = some _ from rfl))
    exact List.forall_mem_cons.2 ⟨hnone _ rfl (hdead _ rfl rfl),
      List.forall_mem_cons.2 ⟨hnone _ rfl (hdead _ rfl rfl), List.forall_mem_singleton.2 hbelow⟩⟩
  have ht : r.TransformsReturn host.depth page := fun is s hl => (hall is s hl.1).1 hl.2
  refine ⟨ht, ?_⟩
  have h := e.render_prunes host .null ht
  obtain ⟨out, ho⟩ := h.1.2 fun is s hreach => (hall is s hreach).2
  obtain ⟨hnone, hsome⟩ := h.2.2 out ho
  cases out with
  | none => cases hnone.1 rfl
  | some n =>
    obtain ⟨hk, -, hu⟩ := hsome n rfl
    have hreach : r.ReachedAt page [2, 1] leaf := .child rfl rfl rfl (.child rfl rfl rfl (.here _))
    exact ⟨n, ho, hk, hu [2, 1] leaf ⟨hreach, rfl⟩⟩

/-- A whole page is lost over a component that stands too deep, although it would leave no node. -/
theorem render_too_deep :
    let host : Host :=
      ⟨fun _ _ _ _ => .fail .notCallable, fun _ => .identity, 0, ⟨.first, none⟩, 0⟩
    let components : ComponentTable := [(.text "Box", .entry ⟨.text "div", .identity⟩)]
    let e : Engine := ⟨⟨[], [], [], components⟩, .standard, none⟩
    let deep := Model.laden 254
    let page : Value := .map [(.text "type", .text "Box"), (.text "children", .list [deep])]
    (e.renderer host).TransformsReturn host.depth page ∧ (e.renderer host).isLive page = true ∧
      (e.renderer host).isLive deep = false ∧
      (e.render host page .null).result = .error .tooDeep := by
  intro host components e deep page
  let r := e.renderer host
  have ht : r.TransformsReturn host.depth page := by
    apply transformsReturn_of_identity
    intro p hp
    obtain rfl := List.mem_singleton.1 hp
    exact ⟨.text "div", rfl⟩
  have hw : deep.wire = .error .tooDeep := Value.wire_laden_eq_error_iff.2 ⟨rfl, by decide⟩
  have hdead : r.isLive deep = false := by rw [isLive, hw]
  have hall : (r.renderAll 0 0 [deep]).result = .error .tooDeep := by
    rw [renderAll, renderWithin_of_wire_error hw]
    rfl
  have hresult : (r.renderWithin 0 page .null).result = _ :=
    result_renderWithin_of_transformed rfl rfl rfl rfl _
  have hchildren (component : Entries) (h : childrenOf component = some [deep]) :
      r.renderedChildren 0 component = .error .tooDeep := by
    rw [renderedChildren, h]
    exact congrArg (Except.map _) hall
  rw [hchildren _ rfl] at hresult
  exact ⟨ht, rfl, hdead, hresult⟩

end Engine
end ViewDoc
