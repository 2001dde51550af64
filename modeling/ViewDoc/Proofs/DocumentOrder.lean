import ViewDoc.Proofs.Pruning

/-!
The order of the components that rendering visits in a document: each stands before its children,
and these from the first to the last. It is the order of their positions.
-/

namespace ViewDoc.Renderer

variable {r : Renderer}

/-- Whether rendering does something at a component: it is live, or it has no plain form. -/
def isVisited (r : Renderer) (c : Value) : Bool :=
  match c.wire with
  | .ok _ => r.isLive c
  | .error _ => true

theorem isVisited_of_wire {c w : Value} (hw : c.wire = .ok w) : r.isVisited c = r.isLive c := by
  rw [isVisited, hw]

theorem isVisited_of_wire_error {c : Value} {f : Failure} (hw : c.wire = .error f) :
    r.isVisited c = true := by
  rw [isVisited, hw]

theorem isVisited_of_isLive {c : Value} (h : r.isLive c = true) : r.isVisited c = true := by
  obtain ⟨component, hc⟩ := exists_wire_of_isLive h
  rw [isVisited_of_wire hc, h]

/-- Only what has a plain form has children. -/
theorem isLive_of_isVisited {c : Value} {items : List Value} (h : r.isVisited c = true)
    (hs : sourceChildren c = some items) : r.isLive c = true := by
  unfold sourceChildren at hs
  split at hs
  · rename_i component hc
    rw [← isVisited_of_wire hc, h]
  · cases hs

mutual

/-- The components to visit and their positions: each before its children, and these from the first
to the last. -/
def order (r : Renderer) (c : Value) : List (List Nat × Value) :=
  if r.isVisited c then
    ([], c) ::
      match _h : sourceChildren c with
      | none => []
      | some items => orderAll r 0 items
  else []
termination_by (c.weight, 0)
decreasing_by exact Prod.Lex.left _ _ (weights_lt_of_sourceChildren _h)

/-- The same for components under positions, the first of which is `i`. -/
def orderAll (r : Renderer) (i : Nat) : List Value → List (List Nat × Value)
  | [] => []
  | c :: rest => (order r c).map (fun p => (i :: p.1, p.2)) ++ orderAll r (i + 1) rest
termination_by items => (Value.weights items, 1)
decreasing_by
  · simp only [Value.weights]
    by_cases h : Value.weights rest = 0
    · rw [h]
      exact Prod.Lex.right _ (by omega)
    · exact Prod.Lex.left _ _ (by omega)
  · have := Value.weight_pos c
    simp only [Value.weights]
    exact Prod.Lex.left _ _ (by omega)

end

theorem order_of_not_visited {c : Value} (h : r.isVisited c = false) : r.order c = [] := by
  rw [order, if_neg (by simp [h])]

theorem order_of_leaf {c : Value} (h : r.isVisited c = true) (hs : sourceChildren c = none) :
    r.order c = [([], c)] := by
  rw [order, if_pos h]
  split
  · rfl
  · rename_i hsome
    rw [hs] at hsome
    cases hsome

theorem order_of_wire_error {c : Value} {f : Failure} (hw : c.wire = .error f) :
    r.order c = [([], c)] := by
  have hs : sourceChildren c = none := by rw [sourceChildren, hw]
  exact order_of_leaf (isVisited_of_wire_error hw) hs

theorem order_of_children {c : Value} {items : List Value} (h : r.isLive c = true)
    (hs : sourceChildren c = some items) : r.order c = ([], c) :: r.orderAll 0 items := by
  rw [order, if_pos (isVisited_of_isLive h)]
  split
  · rename_i hnone
    rw [hs] at hnone
    cases hnone
  · rename_i items' hsome
    rw [hs] at hsome
    obtain rfl := Option.some.inj hsome
    rfl

theorem exists_order_of_visited {c : Value} (h : r.isVisited c = true) :
    ∃ below, r.order c = ([], c) :: below := by
  rw [order, if_pos h]
  exact ⟨_, rfl⟩

theorem orderAll_eq (r : Renderer) (i : Nat) (items : List Value) :
    r.orderAll i items = (items.zipIdx i).flatMap fun p =>
      (r.order p.1).map fun q => (p.2 :: q.1, q.2) := by
  induction items generalizing i with
  | nil => rw [orderAll, List.zipIdx_nil, List.flatMap_nil]
  | cons c items ih => rw [orderAll, List.zipIdx_cons, List.flatMap_cons, ih]

theorem mem_orderAll {items : List Value} {is : List Nat} {s : Value} :
    (is, s) ∈ r.orderAll 0 items ↔
      ∃ i js d, is = i :: js ∧ items[i]? = some d ∧ (js, s) ∈ r.order d := by
  rw [orderAll_eq, List.mem_flatMap]
  constructor
  · intro h
    obtain ⟨⟨d, i⟩, hi, hmem⟩ := h
    obtain ⟨⟨js, s'⟩, hs, heq⟩ := List.mem_map.1 hmem
    obtain ⟨rfl, rfl⟩ := Prod.mk.inj heq
    exact ⟨i, js, d, rfl, List.mem_zipIdx_iff_getElem?.1 hi, hs⟩
  · intro h
    obtain ⟨i, js, d, rfl, hi, hs⟩ := h
    exact ⟨(d, i), List.mem_zipIdx_iff_getElem?.2 hi, List.mem_map.2 ⟨(js, s), hs, rfl⟩⟩

theorem mem_order {c s : Value} {is : List Nat} :
    (is, s) ∈ r.order c ↔ r.isVisited c = true ∧ ((is = [] ∧ s = c) ∨
      ∃ items, sourceChildren c = some items ∧ (is, s) ∈ r.orderAll 0 items) := by
  cases hc : r.isVisited c with
  | false => simp [order_of_not_visited hc]
  | true =>
    cases hs : sourceChildren c with
    | none => simp [order_of_leaf hc hs]
    | some items => simp [order_of_children (isLive_of_isVisited hc hs) hs]

/-- The order has the components that are reached and visited, at their positions. -/
theorem mem_order_iff_reachedAt {c s : Value} {is : List Nat} :
    (is, s) ∈ r.order c ↔ r.ReachedAt c is s ∧ r.isVisited s = true := by
  constructor
  · intro h
    induction is generalizing c with
    | nil =>
      obtain ⟨hc, ⟨-, rfl⟩ | ⟨items, -, hmem⟩⟩ := mem_order.1 h
      · exact ⟨.here s, hc⟩
      · obtain ⟨i, js, d, hnil, -⟩ := mem_orderAll.1 hmem
        cases hnil
    | cons i is ih =>
      obtain ⟨hc, ⟨hnil, -⟩ | ⟨items, hs, hmem⟩⟩ := mem_order.1 h
      · cases hnil
      · obtain ⟨j, js, d, heq, hd, hrest⟩ := mem_orderAll.1 hmem
        obtain ⟨rfl, rfl⟩ := List.cons.inj heq
        obtain ⟨hreach, hvisited⟩ := ih hrest
        exact ⟨.child (isLive_of_isVisited hc hs) hs hd hreach, hvisited⟩
  · intro h
    obtain ⟨hreach, hvisited⟩ := h
    induction hreach with
    | here c => exact mem_order.2 ⟨hvisited, .inl ⟨rfl, rfl⟩⟩
    | child hc hs hd _ ih =>
      refine mem_order.2 ⟨isVisited_of_isLive hc, .inr ⟨_, hs, ?_⟩⟩
      exact mem_orderAll.2 ⟨_, _, _, rfl, hd, ih hvisited⟩

theorem isVisited_of_mem_order {c : Value} {p : List Nat × Value} (h : p ∈ r.order c) :
    r.isVisited p.2 = true := (mem_order_iff_reachedAt.1 h).2

/-- Positions grow along the order: parents stand before their children, and siblings with all below
them one after the other. -/
theorem pairwise_order (r : Renderer) (c : Value) :
    (r.order c).Pairwise fun p q => p.1 < q.1 := by
  induction c using component_induction with
  | _ c ih =>
    cases hc : r.isVisited c with
    | false => simp [order_of_not_visited hc]
    | true =>
      cases hs : sourceChildren c with
      | none => simp [order_of_leaf hc hs]
      | some items =>
        rw [order_of_children (isLive_of_isVisited hc hs) hs, List.pairwise_cons]
        constructor
        · intro p hp
          obtain ⟨i, js, d, heq, -⟩ := mem_orderAll.1 hp
          rw [heq]
          exact List.nil_lt_cons i js
        · -- Below one child positions grow by induction, and from one to the next by its own.
          rw [orderAll_eq, List.pairwise_flatMap]
          constructor
          · intro p hp
            have hmem : p.1 ∈ items := List.fst_mem_of_mem_zipIdx hp
            have hbelow := ih items hs p.1 hmem
            rw [List.pairwise_map]
            exact hbelow.imp fun h => List.cons_lt_cons_iff.2 (.inr ⟨rfl, h⟩)
          · refine (pairwise_zipIdx items).imp ?_
            intro p q hpq x hx y hy
            obtain ⟨x', -, rfl⟩ := List.mem_map.1 hx
            obtain ⟨y', -, rfl⟩ := List.mem_map.1 hy
            exact List.cons_lt_cons_iff.2 (.inl hpq)

end ViewDoc.Renderer
