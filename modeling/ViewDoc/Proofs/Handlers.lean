import ViewDoc.Proofs.Chains

/-!
Which function a descriptor becomes.

Resolving an action gives a function, unless its models stand too deep inside each other: the one
that the factory of its name makes, or the one that does nothing. Runs of factories are seen by
watching them: every factory is replaced by one that records what it runs for and then gives what
the factory gives.
-/

namespace ViewDoc

/-- Records each run of a factory, by the name under which it is registered and the descriptor and
the payload that it is given, and gives what it gives. -/
def Factory.watched (key : Value) (factory : Factory) : Factory := fun context =>
  ⟨(factory context).result,
    [.event (.tuple [key, .map context.descriptor, context.payload])]⟩

/-- What is registered without a factory stays so. -/
def ActionTable.watched (actions : ActionTable) : ActionTable :=
  List.map (fun e => (e.1, e.2.map (Factory.watched e.1))) actions

namespace ActionContext

theorem payload_of_map (context : ActionContext) {payload : Entries}
    (h : context.descriptor.get "payload" = .map payload) : context.payload = .map payload := by
  rw [ActionContext.payload, h]
  cases payload with
  | nil => rfl
  | cons e rest => rfl

theorem payload_of_null (context : ActionContext)
    (h : context.descriptor.get "payload" = .null) : context.payload = .map [] := by
  rw [ActionContext.payload, h]
  rfl

end ActionContext

namespace Action

/-- A descriptor picks a factory: its plain form is a map, and the name there, null if it is absent,
can be a key and is one that is registered with a factory. -/
def Picks (actions : ActionTable) (v key : Value) (descriptor : Entries) (factory : Factory) :
    Prop :=
  v.wire = .ok (.map descriptor) ∧ (descriptor.get "name").isHashable = true ∧
    List.find? (·.1.equal (descriptor.get "name")) actions = some (key, some factory)

def PicksNone (actions : ActionTable) (v : Value) : Prop :=
  ∀ key descriptor factory, ¬ Picks actions v key descriptor factory

/-- The factory that a descriptor picks makes a function of it. -/
def Makes (actions : ActionTable) (context : Entries → ActionContext) (v f : Value) : Prop :=
  ∃ key descriptor factory, Picks actions v key descriptor factory ∧
    (factory (context descriptor)).result = .ok f ∧ f.isFunction = true

variable {actions : ActionTable} {v key : Value} {descriptor : Entries} {factory : Factory}

theorem find?_watched (name : Value) : List.find? (·.1.equal name) actions.watched =
    (List.find? (·.1.equal name) actions).map fun e => (e.1, e.2.map (Factory.watched e.1)) :=
  List.find?_map

theorem picks_watched (h : Picks actions v key descriptor factory) :
    Picks actions.watched v key descriptor (factory.watched key) := by
  obtain ⟨hwire, hh, hfind⟩ := h
  refine ⟨hwire, hh, ?_⟩
  rw [find?_watched, hfind]
  rfl

theorem picksNone_watched (hno : PicksNone actions v) : PicksNone actions.watched v := by
  rintro key descriptor factory ⟨hwire, hh, hfind⟩
  rw [find?_watched, Option.map_eq_some_iff] at hfind
  obtain ⟨⟨k, own?⟩, hown, heq⟩ := hfind
  obtain ⟨rfl, hsome⟩ := Prod.mk.inj heq
  obtain ⟨own, rfl, -⟩ := Option.map_eq_some_iff.1 hsome
  exact hno k descriptor own ⟨hwire, hh, hown⟩

theorem Picks.unique {key' : Value} {descriptor' : Entries} {factory' : Factory}
    (h : Picks actions v key descriptor factory) (h' : Picks actions v key' descriptor' factory') :
    key' = key ∧ descriptor' = descriptor ∧ factory' = factory := by
  obtain ⟨hwire, -, hfind⟩ := h
  obtain ⟨hwire', -, hfind'⟩ := h'
  obtain rfl := Value.map.inj (Except.ok.inj (hwire.symm.trans hwire'))
  obtain ⟨rfl, hsame⟩ := Prod.mk.inj (Option.some.inj (hfind'.symm.trans hfind))
  exact ⟨rfl, rfl, Option.some.inj hsame⟩

theorem makes_iff (h : Picks actions v key descriptor factory) {context : Entries → ActionContext}
    {f : Value} : Makes actions context v f ↔
      (factory (context descriptor)).result = .ok f ∧ f.isFunction = true := by
  constructor
  · intro hmakes
    obtain ⟨key', descriptor', factory', hpicks, hmade⟩ := hmakes
    obtain ⟨rfl, rfl, rfl⟩ := h.unique hpicks
    exact hmade
  · intro hmade
    exact ⟨key, descriptor, factory, h, hmade⟩

theorem not_makes_of_picksNone {context : Entries → ActionContext} (hno : PicksNone actions v)
    (f : Value) : ¬ Makes actions context v f := by
  rintro ⟨key, descriptor, factory, h, -⟩
  exact hno key descriptor factory h

theorem made_of_no_function {given : Except Failure Value}
    (h : ∀ g, ¬ (given = .ok g ∧ g.isFunction = true)) : made given = noop := by
  cases given with
  | error e => rfl
  | ok g => rw [made, if_neg fun hg => h g ⟨rfl, hg⟩]

theorem made_eq_iff {given : Except Failure Value} {f : Value} :
    made given = f ↔ given = .ok f ∧ f.isFunction = true ∨
      f = noop ∧ ∀ g, ¬ (given = .ok g ∧ g.isFunction = true) := by
  by_cases hg : ∃ g, given = .ok g ∧ g.isFunction = true
  · obtain ⟨g, rfl, hg⟩ := hg
    rw [made, if_pos hg]
    constructor
    · intro h
      exact .inl ⟨congrArg Except.ok h, h ▸ hg⟩
    · intro h
      rcases h with ⟨h, -⟩ | ⟨-, hno⟩
      · exact Except.ok.inj h
      · exact absurd ⟨rfl, hg⟩ (hno g)
  · have hno : ∀ g, ¬ (given = .ok g ∧ g.isFunction = true) := not_exists.1 hg
    rw [made_of_no_function hno]
    constructor
    · intro h
      exact .inr ⟨h.symm, hno⟩
    · intro h
      rcases h with h | ⟨h, -⟩
      · exact absurd h (hno f)
      · exact h.symm

section Resolving

variable {resolveVariable : Value → Outcome Value} {call : Value → List Value → Outcome Value}
  {resolver : Option Value}

/-- The factory that is picked runs once, and what it gives counts if it is a function. -/
theorem resolve_gives (h : Picks actions v key descriptor factory) {context : ActionContext}
    (hcontext : context =
      ⟨descriptor, resolveVariable, resolver.getD Resolver.ofActions, call⟩) :
    (resolve actions resolveVariable call resolver v).Gives (made (factory context).result)
      (factory context).events := by
  obtain ⟨hwire, hh, hfind⟩ := h
  rw [resolve_of_factory hwire (factory?_eq_some_iff.2 ⟨hh, key, hfind⟩), ← hcontext]
  exact build_gives factory context

/-- Watched, it gives the same and leaves one record of what it ran for. -/
theorem resolve_watched_gives (h : Picks actions v key descriptor factory)
    {context : ActionContext} (hcontext : context =
      ⟨descriptor, resolveVariable, resolver.getD Resolver.ofActions, call⟩) :
    (resolve actions.watched resolveVariable call resolver v).Gives (made (factory context).result)
      [.tuple [key, .map context.descriptor, context.payload]] :=
  resolve_gives (picks_watched h) hcontext

theorem resolve_of_picksNone {w : Value} (hw : v.wire = .ok w) (h : PicksNone actions v) :
    resolve actions resolveVariable call resolver v = return noop := by
  by_cases hmap : ∃ entries, w = .map entries
  · obtain ⟨entries, rfl⟩ := hmap
    apply resolve_of_no_factory hw
    apply Option.eq_none_iff_forall_ne_some.2
    intro factory hfactory
    obtain ⟨hh, key, hfind⟩ := factory?_eq_some_iff.1 hfactory
    exact h key entries factory ⟨hw, hh, hfind⟩
  · exact resolve_of_other hw (not_exists.1 hmap)

end Resolving

/-- Resolving fails only for a descriptor whose models stand too deep inside each other. Every other
one becomes the function that the factory makes, or else the one that does nothing. Where a factory
is picked it runs once, for the whole descriptor in plain form, and its payload is a map if the
descriptor has a map, null or nothing there; else none runs. -/
theorem resolve_makes_or_noop (actions : ActionTable) (resolveVariable : Value → Outcome Value)
    (call : Value → List Value → Outcome Value) (resolver : Option Value) (v : Value) :
    let context (descriptor : Entries) : ActionContext :=
      ⟨descriptor, resolveVariable, resolver.getD Resolver.ofActions, call⟩
    let resolved := resolve actions resolveVariable call resolver v
    let watched := resolve actions.watched resolveVariable call resolver v
    (∀ f, resolved.result = .error f ↔ f = .tooDeep ∧ v.wire = .error .tooDeep) ∧
    (v.wire ≠ .error .tooDeep → (∃ f, resolved.result = .ok f ∧ f.isFunction = true) ∧
      ∀ f, resolved.result = .ok f ↔
        Makes actions context v f ∨ f = noop ∧ ∀ g, ¬ Makes actions context v g) ∧
    watched.result = resolved.result ∧
    (∀ key descriptor factory, Picks actions v key descriptor factory →
      watched.events = [.tuple [key, .map descriptor, (context descriptor).payload]] ∧
      resolved.events = (factory (context descriptor)).events) ∧
    (PicksNone actions v → watched.events = [] ∧ resolved.journal = []) ∧
    (∀ descriptor : Entries,
      (descriptor.get "payload" = .null → (context descriptor).payload = .map []) ∧
      ∀ payload, descriptor.get "payload" = .map payload →
        (context descriptor).payload = .map payload) := by
  intro context resolved watched
  have hpayload (descriptor : Entries) :
      (descriptor.get "payload" = .null → (context descriptor).payload = .map []) ∧
      ∀ payload, descriptor.get "payload" = .map payload →
        (context descriptor).payload = .map payload :=
    ⟨(context descriptor).payload_of_null, fun _ => (context descriptor).payload_of_map⟩
  rcases Value.exists_wire_or_tooDeep v with ⟨w, hw⟩ | hw
  · by_cases hp : ∃ key descriptor factory, Picks actions v key descriptor factory
    · obtain ⟨key, descriptor, factory, h⟩ := hp
      have hr : resolved.Gives _ _ := resolve_gives h rfl
      have hwatched : watched.Gives _ _ := resolve_watched_gives h rfl
      refine ⟨?_, fun _ => ⟨⟨_, hr.result, isFunction_made _⟩, ?_⟩, ?_, ?_, ?_, hpayload⟩
      · intro f
        rw [hr.result, hw]
        simp
      · intro f
        rw [hr.result, Except.ok.injEq, made_eq_iff]
        simp only [context, makes_iff h]
      · rw [hr.result, hwatched.result]
      · intro key' descriptor' factory' h'
        exact ⟨(resolve_watched_gives h' rfl).events, (resolve_gives h' rfl).events⟩
      · intro hno
        exact absurd h (hno key descriptor factory)
    · have hno : PicksNone actions v := by
        intro key descriptor factory h
        exact hp ⟨key, descriptor, factory, h⟩
      have hr : resolved = return noop := resolve_of_picksNone hw hno
      have hwatched : watched = return noop := resolve_of_picksNone hw (picksNone_watched hno)
      have hnone : ∀ g, ¬ Makes actions context v g := not_makes_of_picksNone hno
      refine ⟨?_, fun _ => ⟨⟨noop, congrArg Outcome.result hr, rfl⟩, ?_⟩, ?_, ?_, ?_, hpayload⟩
      · intro f
        rw [hr, hw]
        simp
      · intro f
        rw [hr, or_iff_right (hnone f), and_iff_left hnone, Outcome.result_pure,
          Except.ok.injEq]
        exact eq_comm
      · rw [hr, hwatched]
      · intro key descriptor factory h
        exact absurd h (hno key descriptor factory)
      · intro _
        rw [hr, hwatched]
        exact ⟨rfl, rfl⟩
  · have hr : resolved = .fail .tooDeep := resolve_of_wire_error hw
    have hwatched : watched = .fail .tooDeep := resolve_of_wire_error hw
    refine ⟨?_, fun hne => absurd hw hne, ?_, ?_, ?_, hpayload⟩
    · intro f
      rw [hr, hw, Outcome.result_fail, Except.error.injEq]
      simp [eq_comm]
    · rw [hr, hwatched]
    · intro key descriptor factory h
      cases h.1.symm.trans hw
    · intro _
      rw [hr, hwatched]
      exact ⟨rfl, rfl⟩

/-- A factory that makes a function, one that fails when it runs, and a name without a factory. -/
theorem resolve_makes_or_noop_table :
    let handler : Value := .function "save" true []
    let actions : ActionTable := [(.text "save", some fun _ => return handler),
      (.text "broken", some fun _ => .fail (.host "factory failed")), (.text "empty", none)]
    let same : Value → Outcome Value := fun v => return v
    let call : Value → List Value → Outcome Value := fun _ _ => .fail .notCallable
    let action (name : String) : Value :=
      .map [(.text "name", .text name), (.text "payload", .null)]
    let resolved (name : String) := resolve actions same call none (action name)
    let watched (name : String) := resolve actions.watched same call none (action name)
    (resolved "save").result = .ok handler ∧
      (watched "save").events = [.tuple [.text "save", action "save", .map []]] ∧
      (resolved "broken").result = .ok noop ∧
      (watched "broken").events = [.tuple [.text "broken", action "broken", .map []]] ∧
      (resolved "empty").result = .ok noop ∧ (watched "empty").events = [] := by
  intro handler actions same call action resolved watched
  have hsave : Picks actions (action "save") _ _ fun _ => return handler := ⟨rfl, rfl, rfl⟩
  have hbroken : Picks actions (action "broken") _ _ fun _ => .fail (.host "factory failed") :=
    ⟨rfl, rfl, rfl⟩
  have hempty : PicksNone actions (action "empty") := by
    intro key descriptor factory h
    obtain ⟨hwire, -, hfind⟩ := h
    obtain rfl := Value.map.inj (Except.ok.inj hwire)
    cases hfind
  have hshallow (name : String) : (action name).wire ≠ .error .tooDeep := by
    intro h
    cases h
  obtain ⟨-, hgives, -, hran, -⟩ :=
    resolve_makes_or_noop actions same call none (action "save")
  obtain ⟨-, hfails, -, htried, -⟩ :=
    resolve_makes_or_noop actions same call none (action "broken")
  obtain ⟨-, hlacks, -, -, hidle, -⟩ :=
    resolve_makes_or_noop actions same call none (action "empty")
  refine ⟨((hgives (hshallow _)).2 handler).2 (.inl ((makes_iff hsave).2 ⟨rfl, rfl⟩)),
    (hran _ _ _ hsave).1, ((hfails (hshallow _)).2 noop).2 (.inr ⟨rfl, ?_⟩),
    (htried _ _ _ hbroken).1, ((hlacks (hshallow _)).2 noop).2 (.inr ⟨rfl, ?_⟩),
    (hidle hempty).1⟩
  · intro g hg
    cases ((makes_iff hbroken).1 hg).1
  · exact not_makes_of_picksNone hempty

/-- A chain of 256 actions becomes no function, whatever is registered. -/
theorem resolve_fails_of_linked :
    (Model.linked 255).isModel = true ∧
      ∀ (actions : ActionTable) (resolveVariable : Value → Outcome Value)
        (call : Value → List Value → Outcome Value) (resolver : Option Value),
        (resolve actions resolveVariable call resolver (Model.linked 255)).result =
          .error .tooDeep := by
  refine ⟨Model.isModel_linked 255, ?_⟩
  intro actions resolveVariable call resolver
  have hw : (Model.linked 255).wire = .error .tooDeep :=
    Value.wire_linked_eq_error_iff.2 ⟨rfl, Nat.le_refl _⟩
  rw [resolve_of_wire_error hw, Outcome.result_fail]

end Action
end ViewDoc
