import ViewDoc.Engine
import ViewDoc.Proofs.Effects
import ViewDoc.Proofs.PlainForms

/-!
Chains of actions, of which each goes on with the next.

Calling the first records the names of a chain in order, each once, up to the first link that does
not run. It makes no difference which resolver the actions are given for those that follow them: the
engine's own, or the one that knows its actions only and is made anew for each of them.
-/

namespace ViewDoc

namespace Action

open Model

/-- A link of a chain: an action with a name, something that is no descriptor, or one whose models
stand too deep inside each other. -/
inductive Link where
  | named (name : Value)
  | malformed
  | tooDeep

theorem weight_lt_of_truthy {entries : Entries} {name : String}
    (h : (entries.get name).truthy = true) :
    (entries.get name).weight < (Value.map entries).weight := by
  rw [Entries.get] at h ⊢
  cases hv : entries.get? name with
  | none =>
    rw [hv] at h
    cases h
  | some v => exact weight_lt_of_get? hv

theorem weight_lt_model_of_truthy {fields : Entries} {name : String}
    (h : (fields.get name).truthy = true) (kind : ModelKind) (given : List String)
    (extra : Entries) :
    (fields.get name).weight < (Value.model kind fields given extra).weight := by
  have hlt := weight_lt_of_truthy h
  simp only [Value.weight] at hlt ⊢
  omega

theorem weight_lt_of_wire {v : Value} {entries : Entries} (hw : v.wire = .ok (.map entries))
    {name : String} (h : (entries.get name).truthy = true) :
    (entries.get name).weight < v.weight :=
  Nat.lt_of_lt_of_le (weight_lt_of_truthy h) (Value.weight_le_of_wire hw)

/-- An action that is a model, and the actions that follow it in its fields. -/
def heldLinks : Value → List Link
  | .model .action fields _ _ =>
    .named (Entries.get fields "name") ::
      if _ht : (Entries.get fields "on_success").truthy then
        heldLinks (Entries.get fields "on_success")
      else []
  | _ => [.malformed]
termination_by v => v.weight
decreasing_by exact weight_lt_model_of_truthy _ht _ _ _

def isAction : Value → Bool
  | .model kind _ _ _ => kind == .action
  | _ => false

/-- The links of a chain, each of which follows the one before it. Those behind a model are models
again, which it holds. -/
def chain (v : Value) : List Link :=
  match _hw : v.wire with
  | .error _ => [.tooDeep]
  | .ok (.map descriptor) =>
    if isAction v then heldLinks v
    else .named (Entries.get descriptor "name") ::
      if _ht : (Entries.get descriptor "onSuccess").truthy then
        chain (Entries.get descriptor "onSuccess")
      else []
  | .ok _ => [.malformed]
termination_by v.weight
decreasing_by exact weight_lt_of_wire _hw _ht

theorem heldLinks_action (fields : Entries) (given : List String) (extra : Entries) :
    heldLinks (.model .action fields given extra) = .named (Entries.get fields "name") ::
      if (Entries.get fields "on_success").truthy then
        heldLinks (Entries.get fields "on_success")
      else [] := by
  rw [heldLinks]
  split <;> rfl

theorem chain_of_wire_error {v : Value} {f : Failure} (h : v.wire = .error f) :
    chain v = [.tooDeep] := by
  rw [chain]
  split
  · rfl
  · rename_i hw
    cases h.symm.trans hw
  · rename_i hw
    cases h.symm.trans hw

theorem chain_of_other {v w : Value} (h : v.wire = .ok w) (hno : ∀ entries, w ≠ .map entries) :
    chain v = [.malformed] := by
  rw [chain]
  split
  · rename_i hw
    cases h.symm.trans hw
  · rename_i hw
    exact absurd (Except.ok.inj (h.symm.trans hw)) (hno _)
  · rfl

theorem chain_of_wire {v : Value} {entries : Entries} (h : v.wire = .ok (.map entries)) :
    chain v = if isAction v then heldLinks v
      else .named (entries.get "name") ::
        if (entries.get "onSuccess").truthy then chain (entries.get "onSuccess") else [] := by
  rw [chain]
  split
  · rename_i hw
    cases h.symm.trans hw
  · rename_i hw
    obtain rfl := Value.map.inj (Except.ok.inj (h.symm.trans hw))
    rfl
  · rename_i hno hw
    exact absurd (Except.ok.inj (hw.symm.trans h)) (hno _)

theorem chain_map (entries : Entries) : chain (.map entries) = .named (entries.get "name") ::
    if (entries.get "onSuccess").truthy then chain (entries.get "onSuccess") else [] :=
  chain_of_wire rfl

/-- The plain form of a sound action: its name, and what follows it in plain form. -/
theorem exists_plain_action {fields extra : Entries} {given : List String}
    (h : IsFormed .action fields given extra) (room : Nat) : ∃ entries : Entries,
      dump true (room + 1) (.model .action fields given extra) = .map entries ∧
        (Value.map entries).truthy = true ∧ entries.get "name" = Entries.get fields "name" ∧
          entries.get "onSuccess" = dump true (room - 1 + 1) (Entries.get fields "on_success") := by
  obtain ⟨entries, hplain⟩ : ∃ entries : Entries,
      dump true (room + 1) (.model .action fields given extra) = .map entries := by
    rw [dump]
    exact ⟨_, rfl⟩
  have hname := (get_plain h hplain name_mem_declared).1
  obtain ⟨s, hs⟩ : ∃ s, Entries.get fields "name" = .text s := by
    rcases fits_get h name_mem_declared with hfits | ⟨hreq, -⟩
    · exact hfits
    · cases hreq
  have htext : entries.get "name" = .text s := by
    rw [hname, hs]
    cases ModelKind.action.roomInside room <;> rfl
  have hnext := (get_plain h hplain followUp_mem_declared).1
  refine ⟨entries, hplain, ?_, htext.trans hs.symm, hnext⟩
  cases entries with
  | nil => cases htext
  | cons e rest => rfl

/-- What follows a sound action is another one, if it is anything at all. -/
theorem followUp_of_isSound {fields extra : Entries} {given : List String}
    (h : IsSound (.model .action fields given extra)) :
    Entries.get fields "on_success" = .null ∨ ∃ more taken others,
      Entries.get fields "on_success" = .model .action more taken others ∧
        IsSound (.model .action more taken others) := by
  rw [IsSound] at h
  obtain ⟨hformed, hfields, -⟩ := h
  rcases fits_get hformed followUp_mem_declared with hfits | ⟨-, hnull⟩
  · rcases hfits with ⟨-, hnull⟩ | ⟨more, taken, others, hmodel⟩
    · exact .inl hnull
    · exact .inr ⟨more, taken, others, hmodel, hmodel ▸ isSound_get hfields "on_success"⟩
  · exact .inl hnull

/-- The plain form of an action stands for the chain that the model holds. -/
theorem chain_dump {fields extra : Entries} {given : List String}
    (h : IsSound (.model .action fields given extra)) (room : Nat) :
    chain (dump true (room + 1) (.model .action fields given extra)) =
      heldLinks (.model .action fields given extra) := by
  have hformed : IsFormed .action fields given extra := by
    rw [IsSound] at h
    exact h.1
  obtain ⟨entries, hplain, -, hname, hnext⟩ := exists_plain_action hformed room
  rw [hplain, chain_map, hname, hnext, heldLinks_action]
  rcases followUp_of_isSound h with hnull | ⟨more, taken, others, hmodel, hsound⟩
  · rw [hnull, dump_null]
    rfl
  · have hlt : (Value.model .action more taken others).weight <
        (Value.model .action fields given extra).weight := by
      rw [← hmodel]
      exact weight_lt_model_of_truthy (hmodel ▸ rfl) _ _ _
    have htruthy : (dump true (room - 1 + 1) (.model .action more taken others)).truthy =
        true := by
      rw [IsSound] at hsound
      obtain ⟨_, hplain, htruthy, -⟩ := exists_plain_action hsound.1 (room - 1)
      exact hplain ▸ htruthy
    rw [hmodel, htruthy, chain_dump hsound]
    rfl
termination_by (Value.model .action fields given extra).weight

/-- The links of a descriptor, read off its plain form. -/
theorem chain_of_isSound {v : Value} {entries : Entries} (hv : IsSound v)
    (h : v.wire = .ok (.map entries)) : IsSound (.map entries) ∧
      chain v = .named (entries.get "name") ::
        if (entries.get "onSuccess").truthy then chain (entries.get "onSuccess") else [] := by
  have hcases : IsSound (.map entries) ∧
      (isAction v = true → chain (.map entries) = heldLinks v) := by
    cases v with
    | model kind fields given extra =>
      obtain ⟨-, hplain⟩ := plain_eq_ok_iff.1 h
      refine ⟨hplain ▸ isSound_dump _ _ hv, ?_⟩
      intro haction
      obtain rfl : kind = .action := eq_of_beq haction
      rw [← hplain]
      exact chain_dump hv nestingLimit
    | map es =>
      obtain rfl := Value.map.inj (Except.ok.inj h)
      exact ⟨hv, fun haction => by cases haction⟩
    | list items | tuple items =>
      rw [Value.wire] at h
      split at h
      · obtain ⟨ws, -, hws⟩ := map_eq_ok_iff.1 h
        cases hws
      · cases h
    | _ => cases h
  refine ⟨hcases.1, ?_⟩
  rw [chain_of_wire h]
  split
  · rename_i haction
    rw [← hcases.2 haction, chain_map]
  · rfl

theorem heldLinks_followed (name : String) {next : Value} (h : next.truthy = true) :
    heldLinks (ofFields .action
      [("name", some (.text name)), ("payload", none), ("on_success", some next)] []) =
        .named (.text name) :: heldLinks next := by
  have hfields : Entries.get [(.text "name", .text name), (.text "payload", .null),
      (.text "on_success", next)] "on_success" = next := rfl
  rw [ofFields, heldLinks_action]
  exact congrArg (Link.named (.text name) :: ·) (hfields ▸ if_pos h)

theorem exists_linked (n : Nat) :
    ∃ fields given extra, linked n = .model .action fields given extra := by
  cases n <;> exact ⟨_, _, _, rfl⟩

theorem isSound_linked (n : Nat) : IsSound (linked n) := by
  induction n with
  | zero => exact isSound_action "a" ⟨rfl, rfl⟩ (by simp [IsSound])
  | succ n ih => exact isSound_action "a" ⟨rfl, .inr (exists_linked n)⟩ ih

theorem heldLinks_linked (n : Nat) :
    heldLinks (linked n) = List.replicate (n + 1) (.named (.text "a")) := by
  induction n with
  | zero => exact heldLinks_action _ _ _
  | succ n ih =>
    have htruthy : (linked n).truthy = true := by
      obtain ⟨fields, given, extra, h⟩ := exists_linked n
      exact h ▸ rfl
    rw [List.replicate_succ, ← ih]
    exact heldLinks_followed "a" htruthy

theorem one_le_length_heldLinks (v : Value) : 1 ≤ (heldLinks v).length := by
  fun_cases heldLinks v <;> simp

theorem one_le_length_chain (v : Value) : 1 ≤ (chain v).length := by
  fun_cases chain v <;> simp [one_le_length_heldLinks]

/-- Resolves what follows, if there is anything, with the resolver that an action was given, and
calls it; before that the event is recorded. -/
def goOn (call : CallContext) (resolver said next : Value) (pass : List Value) (out : Value) :
    Outcome Value := do
  Outcome.event said
  if next.truthy then do
    let f ← call.call resolver [next]
    let _ ← call.call f pass
    return out
  else return out

/-- A factory of handlers that record a name and then go on with what follows. A handler has
captured its descriptor and goes on with the resolver that its factory was given; what it passes on
and what it returns is left open. -/
def Chains (run : Runner) (naming : Value → Value) (factory : Factory) : Prop :=
  ∀ context : ActionContext, ∃ label named captured,
    (factory context).Gives (.function label named captured) [] ∧
      .map context.descriptor ∈ captured ∧ ∀ (call : CallContext) (args : List Value),
        ∃ pass out, run call label captured args =
          goOn call context.resolver (naming (context.descriptor.get "name")) context.onSuccess
            pass out

/-- A factory that fails or gives something that is no function. -/
def IsBroken (factory : Factory) : Prop :=
  ∀ context : ActionContext, (factory context).events = [] ∧
    ∀ v, (factory context).result = .ok v → v.isFunction = false

/-- Every factory chains or is broken. One that chains records its name, as it is registered or as
the descriptor has it. -/
def IsChaining (run : Runner) (actions : ActionTable) : Prop :=
  ∀ key factory, (key, some factory) ∈ actions → IsBroken factory ∨
    ∃ naming, (naming = id ∨ naming = fun _ => key) ∧ Chains run naming factory

/-- A link that runs, and what it records: its name leads to a factory that chains. -/
def RunsAs (run : Runner) (actions : ActionTable) (link : Link) (said : Value) : Prop :=
  ∃ name key factory naming, link = .named name ∧ name.isHashable = true ∧
    List.find? (·.1.equal name) actions = some (key, some factory) ∧ Chains run naming factory ∧
      (naming = id ∨ naming = fun _ => key) ∧ said = naming name

/-- The links that stop a chain and let it end well. -/
inductive Stops (actions : ActionTable) : Link → Prop
  | malformed : Stops actions .malformed
  | unhashable {name : Value} : name.isHashable = false → Stops actions (.named name)
  | unregistered {name : Value} :
      (∀ key factory, List.find? (·.1.equal name) actions ≠ some (key, some factory)) →
      Stops actions (.named name)
  | broken {name key : Value} {factory : Factory} :
      List.find? (·.1.equal name) actions = some (key, some factory) → IsBroken factory →
      Stops actions (.named name)

/-- What the links of a chain record, and how it ends: each that runs its name, in their order, up
to the first that stops or stands too deep. -/
inductive Plays (run : Runner) (actions : ActionTable) :
    List Link → List Value → Option Failure → Prop
  | finished : Plays run actions [] [] none
  | stopped {link : Link} {rest : List Link} : Stops actions link →
      Plays run actions (link :: rest) [] none
  | tooDeep {rest : List Link} : Plays run actions (.tooDeep :: rest) [] (some .tooDeep)
  | next {link : Link} {rest : List Link} {said : Value} {more : List Value}
      {ending : Option Failure} : RunsAs run actions link said →
      Plays run actions rest more ending → Plays run actions (link :: rest) (said :: more) ending

variable {run : Runner} {actions : ActionTable}

theorem runsAs_or_stops (h : IsChaining run actions) (name : Value) :
    (∃ said, RunsAs run actions (.named name) said) ∨ Stops actions (.named name) := by
  cases hh : name.isHashable with
  | false => exact .inr (.unhashable hh)
  | true =>
    by_cases hf : ∃ key factory, List.find? (·.1.equal name) actions = some (key, some factory)
    · obtain ⟨key, factory, hf⟩ := hf
      have hmem := List.mem_of_find?_eq_some hf
      rcases h key factory hmem with hbroken | ⟨naming, hnaming, hchains⟩
      · exact .inr (.broken hf hbroken)
      · exact .inl ⟨naming name, name, key, factory, naming, rfl, hh, hf, hchains, hnaming, rfl⟩
    · refine .inr (.unregistered ?_)
      intro key factory hsome
      exact hf ⟨key, factory, hsome⟩

theorem not_isBroken_of_chains {naming : Value → Value} {factory : Factory}
    (h : Chains run naming factory) : ¬ IsBroken factory := by
  intro hbroken
  obtain ⟨label, named, captured, hgives, -⟩ :=
    h ⟨[], fun _ => .fail .nesting, .null, fun _ _ => .fail .nesting⟩
  have hno := (hbroken _).2 _ hgives.result
  cases hno

/-- No link both runs and stops. -/
theorem not_stops_of_runsAs {link : Link} {said : Value} (h : RunsAs run actions link said) :
    ¬ Stops actions link := by
  obtain ⟨name, key, factory, naming, rfl, hh, hfind, hchains, -⟩ := h
  intro hstops
  cases hstops with
  | unhashable hno => exact absurd hh (Bool.eq_false_iff.1 hno)
  | unregistered hno => exact hno key factory hfind
  | broken hfound hbroken =>
    obtain ⟨-, hsame⟩ := Prod.mk.inj (Option.some.inj (hfind.symm.trans hfound))
    obtain rfl := Option.some.inj hsame
    exact not_isBroken_of_chains hchains hbroken

theorem exists_plays (h : IsChaining run actions) (links : List Link) :
    ∃ said ending, Plays run actions links said ending := by
  induction links with
  | nil => exact ⟨[], none, .finished⟩
  | cons link rest ih =>
    cases link with
    | malformed => exact ⟨[], none, .stopped .malformed⟩
    | tooDeep => exact ⟨[], _, .tooDeep⟩
    | named name =>
      rcases runsAs_or_stops h name with ⟨said, hruns⟩ | hstops
      · obtain ⟨more, ending, hrest⟩ := ih
        exact ⟨said :: more, ending, .next hruns hrest⟩
      · exact ⟨[], none, .stopped hstops⟩

/-- A chain ends well unless one of its links stands too deep. -/
theorem mem_of_plays {links : List Link} {said : List Value} {ending : Option Failure}
    (h : Plays run actions links said ending) {f : Failure} (hf : ending = some f) :
    f = .tooDeep ∧ .tooDeep ∈ links := by
  induction h with
  | finished => cases hf
  | stopped => cases hf
  | tooDeep => exact ⟨(Option.some.inj hf).symm, List.mem_cons_self⟩
  | next _ _ ih =>
    obtain ⟨hf, hmem⟩ := ih hf
    exact ⟨hf, List.mem_cons_of_mem _ hmem⟩

theorem factory?_eq_some_iff {descriptor : Entries} {factory : Factory} :
    factory? actions descriptor = some factory ↔ (descriptor.get "name").isHashable = true ∧
      ∃ key, List.find? (·.1.equal (descriptor.get "name")) actions = some (key, some factory) := by
  rw [factory?, Table.lookup?, Option.join_eq_some_iff]
  split
  · rename_i hh
    rw [Table.find?, Option.map_eq_some_iff]
    simp [hh]
  · rename_i hh
    simp [hh]

/-- What a factory has given, as a function: anything else becomes the one that does nothing. -/
def made : Except Failure Value → Value
  | .ok f => if f.isFunction then f else noop
  | .error _ => noop

theorem isFunction_made (given : Except Failure Value) : (made given).isFunction = true := by
  cases given with
  | error e => rfl
  | ok f =>
    rw [made]
    split
    · assumption
    · rfl

/-- A factory runs once, and what it gives counts if it is a function. -/
theorem build_gives (factory : Factory) (context : ActionContext) :
    (build factory context).Gives (made (factory context).result) (factory context).events := by
  have hattempt : (factory context).attempt.Gives (factory context).result
      (factory context).events := ⟨rfl, rfl⟩
  have hlog (source : LogSource) (severity : Severity) (text : String) :
      (do Outcome.log source severity text; return noop).Gives noop [] := ⟨rfl, rfl⟩
  rw [← List.append_nil (factory context).events]
  refine hattempt.bind ?_
  cases (factory context).result with
  | error e => exact hlog _ _ _
  | ok f =>
    rw [made]
    dsimp only
    split
    · exact Outcome.gives_pure f
    · exact hlog _ _ _

theorem build_of_function {factory : Factory} {context : ActionContext} {label : String}
    {named : Bool} {captured : List Value}
    (h : (factory context).Gives (.function label named captured) []) :
    (build factory context).Gives (.function label named captured) [] := by
  have hbuild := build_gives factory context
  rw [h.result, h.events] at hbuild
  exact hbuild

theorem build_of_isBroken {factory : Factory} (h : IsBroken factory) (context : ActionContext) :
    (build factory context).Gives noop [] := by
  obtain ⟨hevents, hresult⟩ := h context
  have hmade : made (factory context).result = noop := by
    cases hr : (factory context).result with
    | error e => rfl
    | ok v => rw [made, hresult v hr, if_neg Bool.false_ne_true]
  have hbuild := build_gives factory context
  rwa [hmade, hevents] at hbuild

section Resolving

variable {resolveVariable : Value → Outcome Value} {call : Value → List Value → Outcome Value}
  {resolver : Option Value}

theorem resolve_of_wire_error {v : Value} {f : Failure} (h : v.wire = .error f) :
    resolve actions resolveVariable call resolver v = .fail f := by
  rw [resolve, h]
  rfl

theorem resolve_of_other {v w : Value} (h : v.wire = .ok w) (hno : ∀ entries, w ≠ .map entries) :
    resolve actions resolveVariable call resolver v = return noop := by
  rw [resolve, h, Outcome.liftM_ok_bind]
  split
  · exact absurd rfl (hno _)
  · rfl

theorem resolve_of_factory {v : Value} {entries : Entries} {factory : Factory}
    (h : v.wire = .ok (.map entries)) (hf : factory? actions entries = some factory) :
    resolve actions resolveVariable call resolver v =
      build factory ⟨entries, resolveVariable, resolver.getD Resolver.ofActions, call⟩ := by
  simp only [resolve, h, Outcome.liftM_ok_bind, hf]

theorem resolve_of_no_factory {v : Value} {entries : Entries} (h : v.wire = .ok (.map entries))
    (hf : factory? actions entries = none) :
    resolve actions resolveVariable call resolver v = return noop := by
  simp only [resolve, h, Outcome.liftM_ok_bind, hf]

theorem resolve_of_stops {v : Value} {entries : Entries} (hw : v.wire = .ok (.map entries))
    (h : Stops actions (.named (entries.get "name"))) :
    (resolve actions resolveVariable call resolver v).Gives noop [] := by
  cases hf : factory? actions entries with
  | none =>
    rw [resolve_of_no_factory hw hf]
    exact Outcome.gives_pure noop
  | some factory =>
    rw [resolve_of_factory hw hf]
    obtain ⟨hh, key, hfind⟩ := factory?_eq_some_iff.1 hf
    cases h with
    | unhashable hno => exact absurd hh (Bool.eq_false_iff.1 hno)
    | unregistered hno => exact absurd hfind (hno key factory)
    | broken hfound hbroken =>
      obtain ⟨rfl, hsame⟩ := Prod.mk.inj (Option.some.inj (hfind.symm.trans hfound))
      obtain rfl := Option.some.inj hsame
      exact build_of_isBroken hbroken _

theorem resolve_of_runsAs {v : Value} {entries : Entries} (hw : v.wire = .ok (.map entries))
    {said : Value} (h : RunsAs run actions (.named (entries.get "name")) said) :
    ∃ label named captured,
      (resolve actions resolveVariable call resolver v).Gives (.function label named captured) [] ∧
        captured ≠ [] ∧ ∀ (within : CallContext) (args : List Value), ∃ pass out,
          run within label captured args = goOn within (resolver.getD Resolver.ofActions) said
            (entries.get "onSuccess") pass out := by
  obtain ⟨name, key, factory, naming, hname, hh, hfind, hchains, -, rfl⟩ := h
  obtain rfl := Link.named.inj hname
  obtain ⟨label, named, captured, hgives, hmem, hrun⟩ :=
    hchains ⟨entries, resolveVariable, resolver.getD Resolver.ofActions, call⟩
  refine ⟨label, named, captured, ?_, List.ne_nil_of_mem hmem, hrun⟩
  rw [resolve_of_factory hw (factory?_eq_some_iff.2 ⟨hh, key, hfind⟩)]
  exact build_of_function hgives

end Resolving

section Calling

variable {m : Caller} {resolver : Option Value}

/-- A chosen resolver that chooses itself again: the engine's own, or none. -/
def IsOwn (resolver : Option Value) : Prop := resolver = some Resolver.ofEngine ∨ resolver = none

/-- Called from a handler, the resolver of its factory does as the one that ran the factory. -/
theorem call_resolver (h : IsOwn resolver) (depth : Nat) (v : Value) :
    m.call (depth + 1) (resolver.getD Resolver.ofActions) [v] =
      resolve m.actions m.resolveVariable (m.call depth) resolver v := by
  rcases h with rfl | rfl
  · rfl
  · rfl

theorem call_noop (depth : Nat) (args : List Value) :
    m.call (depth + 1) noop args = return .null := rfl

theorem call_handler {label : String} {named : Bool} {captured : List Value} (h : captured ≠ [])
    (depth : Nat) (args : List Value) :
    m.call (depth + 1) (.function label named captured) args =
      m.run ⟨m.resolveVariable, m.call depth⟩ label captured args := by
  cases captured with
  | nil => exact absurd rfl h
  | cons first rest => rfl

theorem ends_goOn {within : CallContext} {chosen said next : Value} {pass : List Value}
    {out : Value} {more : List Value} {ending : Option Failure}
    (hlast : next.truthy = false → more = [] ∧ ending = none)
    (hnext : next.truthy = true → (do
      let f ← within.call chosen [next]
      within.call f pass).Ends more ending) :
    (goOn within chosen said next pass out).Ends (said :: more) ending := by
  rw [goOn]
  refine (Outcome.gives_event said).ends_bind ?_
  cases ht : next.truthy with
  | false =>
    obtain ⟨rfl, rfl⟩ := hlast ht
    exact (Outcome.gives_pure out).ends
  | true =>
    rw [if_pos rfl]
    have hcalls := (hnext ht).bind_return out
    rw [Outcome.bind_assoc] at hcalls
    exact hcalls

/-- Resolving and calling a chain does what its links play, at every depth with room for them. -/
theorem ends_of_plays (hown : IsOwn resolver) {v : Value} (hv : IsSound v) {said : List Value}
    {ending : Option Failure} (h : Plays m.run m.actions (chain v) said ending)
    (call : Value → List Value → Outcome Value) {depth : Nat} (hdepth : (chain v).length ≤ depth)
    (args : List Value) :
    (do m.call depth (← resolve m.actions m.resolveVariable call resolver v) args).Ends said
      ending := by
  obtain ⟨depth, rfl⟩ := Nat.exists_eq_add_of_le' (Nat.le_trans (one_le_length_chain v) hdepth)
  have hidle : (m.call (depth + 1) noop args).Ends [] none := by
    rw [call_noop]
    exact (Outcome.gives_pure Value.null).ends
  rcases Value.exists_wire_or_tooDeep v with ⟨w, hw⟩ | hw
  · by_cases hmap : ∃ entries, w = .map entries
    · obtain ⟨entries, rfl⟩ := hmap
      obtain ⟨hsound, hchain⟩ := chain_of_isSound hv hw
      rw [hchain] at h hdepth
      cases h with
      | stopped hstops => exact (resolve_of_stops hw hstops).ends_bind hidle
      | @next _ _ name more _ hruns hrest =>
        obtain ⟨label, named, captured, hgives, hne, hrun⟩ := resolve_of_runsAs hw hruns
        refine hgives.ends_bind ?_
        rw [call_handler hne]
        obtain ⟨pass, out, hgoOn⟩ := hrun _ args
        rw [hgoOn]
        cases ht : (Entries.get entries "onSuccess").truthy with
        | false =>
          rw [ht] at hrest
          cases hrest
          exact ends_goOn (fun _ => ⟨rfl, rfl⟩) (by simp [ht])
        | true =>
          rw [ht, if_pos rfl] at hrest hdepth
          have hroom := Nat.le_of_succ_le_succ hdepth
          have hlt := weight_lt_of_wire hw ht
          rw [IsSound] at hsound
          refine ends_goOn (by simp [ht]) fun _ => ?_
          obtain ⟨inner, rfl⟩ := Nat.exists_eq_add_of_le'
            (Nat.le_trans (one_le_length_chain (Entries.get entries "onSuccess")) hroom)
          dsimp only
          rw [call_resolver hown]
          exact ends_of_plays hown (isSound_get hsound.2 "onSuccess") hrest _ hroom pass
    · rw [chain_of_other hw (not_exists.1 hmap)] at h
      rw [resolve_of_other hw (not_exists.1 hmap)]
      cases h with
      | stopped hstops => exact (Outcome.gives_pure noop).ends_bind hidle
      | next hruns =>
        obtain ⟨_, _, _, _, hname, -⟩ := hruns
        cases hname
  · rw [chain_of_wire_error hw] at h
    rw [resolve_of_wire_error hw]
    cases h with
    | stopped hstops => cases hstops
    | tooDeep => exact Outcome.ends_fail Failure.tooDeep
    | next hruns =>
      obtain ⟨_, _, _, _, hname, -⟩ := hruns
      cases hname
termination_by v.weight

end Calling

end Action

namespace Engine

open ViewDoc.Action

/-- Chains run in order, each link once, up to the first that is malformed, has no name with a
factory or has a broken one; only a link that stands too deep makes them fail. The engine's own
resolver, and the one that knows the same actions and no engine, record the same. -/
theorem chain_records (host : Host) (e : Engine)
    (hactions : IsChaining host.run e.registries.actions) {v : Value} (hv : Model.IsSound v)
    (hdepth : (chain v).length ≤ host.depth) :
    ∃ said ending, Plays host.run e.registries.actions (chain v) said ending ∧
      (∀ f, ending = some f → f = .tooDeep ∧ .tooDeep ∈ chain v) ∧ ∀ args,
        (do e.call host (← e.resolveAction host v) args).Ends said ending ∧
        (do
          let alone := resolve e.registries.actions (e.resolveVariable host) (e.call host) none
          e.call host (← alone v) args).Ends said ending := by
  obtain ⟨said, ending, hplays⟩ := exists_plays hactions (chain v)
  refine ⟨said, ending, hplays, fun f hf => mem_of_plays hplays hf, fun args => ?_⟩
  have hends {resolver : Option Value} (hown : IsOwn resolver) :=
    ends_of_plays (m := e.caller host) hown hv hplays (e.call host) hdepth args
  exact ⟨hends (.inl rfl), hends (.inr rfl)⟩

/-- How a handler runs that has captured its descriptor and a resolver: it records its label. -/
def chainingRun : Runner := fun call label captured args =>
  match captured with
  | [.map descriptor, resolver] =>
    goOn call resolver (.text label) (Entries.get descriptor "onSuccess") args .null
  | _ => .fail .notCallable

/-- Makes such handlers with this label. -/
def chaining (label : String) : Factory := fun context =>
  return .function label true [.map context.descriptor, context.resolver]

theorem chains_chaining (label : String) :
    Chains chainingRun (fun _ => .text label) (chaining label) := by
  intro context
  refine ⟨label, true, _, Outcome.gives_pure _, List.mem_cons_self, ?_⟩
  intro call args
  exact ⟨args, .null, rfl⟩

/-- A map that is followed by models, the third of which has a broken factory. -/
theorem chain_records_mixed :
    let broken : Factory := fun _ => .fail (.host "factory failed")
    let actions : ActionTable := [(.text "save", some (chaining "save")),
      (.text "track", some (chaining "track")), (.text "broken", some broken)]
    let host : Host := ⟨chainingRun, fun _ => .identity, 0, ⟨.first, none⟩, 4⟩
    let e : Engine := ⟨⟨[], [], actions, []⟩, .standard, none⟩
    let action (name : String) (next : Option Value) : Value := Model.ofFields .action
      [("name", some (.text name)), ("payload", none), ("on_success", next)] []
    let v : Value := .map [(.text "name", .text "save"),
      (.text "onSuccess", action "track" (some (action "broken" (some (action "save" none)))))]
    IsChaining host.run e.registries.actions ∧ Model.IsSound v ∧
      chain v = [.named (.text "save"), .named (.text "track"), .named (.text "broken"),
        .named (.text "save")] ∧ (chain v).length ≤ host.depth ∧
      ∀ args, (do e.call host (← e.resolveAction host v) args).Ends
        [.text "save", .text "track"] none := by
  intro broken actions host e action v
  have hbroken : IsBroken broken := fun _ => ⟨rfl, fun _ h => by cases h⟩
  have hactions : IsChaining host.run e.registries.actions := by
    intro key factory hmem
    simp only [e, actions, List.mem_cons, List.not_mem_nil, or_false, Prod.mk.injEq,
      Option.some.injEq] at hmem
    rcases hmem with ⟨rfl, rfl⟩ | ⟨rfl, rfl⟩ | ⟨rfl, rfl⟩
    · exact .inr ⟨_, .inr rfl, chains_chaining "save"⟩
    · exact .inr ⟨_, .inr rfl, chains_chaining "track"⟩
    · exact .inl hbroken
  have hlast : Model.IsSound (action "save" none) :=
    Model.isSound_action "save" ⟨rfl, rfl⟩ (by simp [Model.IsSound])
  have hthird : Model.IsSound (action "broken" (some (action "save" none))) :=
    Model.isSound_action "broken" ⟨rfl, .inr ⟨_, _, _, rfl⟩⟩ hlast
  have hsecond : Model.IsSound (action "track" (some (action "broken" _))) :=
    Model.isSound_action "track" ⟨rfl, .inr ⟨_, _, _, rfl⟩⟩ hthird
  have hv : Model.IsSound v := by
    simp only [v, Model.IsSound, Model.EntriesSound, hsecond, and_true]
    exact .cons (by simp) (.cons (List.forall_mem_nil _) .nil)
  have hchain : chain v = [.named (.text "save"), .named (.text "track"),
      .named (.text "broken"), .named (.text "save")] := by
    have hend : heldLinks (action "save" none) = [.named (.text "save")] :=
      heldLinks_action _ _ _
    have hmodel : chain (action "track" (some (action "broken" (some (action "save" none))))) =
        heldLinks (action "track" (some (action "broken" (some (action "save" none))))) :=
      chain_of_wire rfl
    have hfirst : chain v = .named (.text "save") :: chain (action "track" _) := chain_map _
    rw [hfirst, hmodel, heldLinks_followed "track" rfl, heldLinks_followed "broken" rfl, hend]
  have hdepth : (chain v).length ≤ host.depth := by
    rw [hchain]
    exact Nat.le_refl 4
  obtain ⟨said, ending, hplays, hending, hends⟩ := chain_records host e hactions hv hdepth
  have hnone : ending = none := by
    cases ending with
    | none => rfl
    | some f =>
      have hmem := (hending f rfl).2
      rw [hchain] at hmem
      simp at hmem
  have hsaid : said = [.text "save", .text "track"] := by
    rw [hchain] at hplays
    have hruns (name : String) (hname : List.find? (·.1.equal (.text name)) actions =
        some (.text name, some (chaining name))) {said : Value}
        (h : RunsAs chainingRun actions (.named (.text name)) said) : said = .text name := by
      obtain ⟨_, key, factory, naming, hlink, -, hfind, -, hnaming, rfl⟩ := h
      obtain rfl := Link.named.inj hlink
      obtain ⟨rfl, -⟩ := Prod.mk.inj (Option.some.inj (hname.symm.trans hfind))
      rcases hnaming with rfl | rfl <;> rfl
    have hregistered (name : String) (hname : List.find? (·.1.equal (.text name)) actions =
        some (.text name, some (chaining name))) :
        RunsAs chainingRun actions (.named (.text name)) (.text name) :=
      ⟨_, _, _, _, rfl, rfl, hname, chains_chaining name, .inr rfl, rfl⟩
    cases hplays with
    | stopped hstops => exact absurd hstops (not_stops_of_runsAs (hregistered "save" rfl))
    | next hsave hplays =>
      cases hplays with
      | stopped hstops => exact absurd hstops (not_stops_of_runsAs (hregistered "track" rfl))
      | next htrack hplays =>
        cases hplays with
        | stopped hstops => rw [hruns "save" rfl hsave, hruns "track" rfl htrack]
        | next hthird _ => exact absurd (.broken rfl hbroken) (not_stops_of_runsAs hthird)
  exact ⟨hactions, hv, hchain, hdepth, fun args => hsaid ▸ hnone ▸ (hends args).1⟩

/-- A chain of 256 actions that are models, all of which have a factory that chains, records nothing
and fails. -/
theorem chain_fails_of_linked :
    let actions : ActionTable := [(.text "a", some (chaining "a"))]
    let host : Host := ⟨chainingRun, fun _ => .identity, 0, ⟨.first, none⟩, 1000⟩
    let e : Engine := ⟨⟨[], [], actions, []⟩, .standard, none⟩
    let v := Model.linked 255
    IsChaining host.run e.registries.actions ∧ Model.IsSound v ∧
      heldLinks v = List.replicate 256 (.named (.text "a")) ∧
      ∀ args, (do e.call host (← e.resolveAction host v) args).Ends [] (some .tooDeep) := by
  intro actions host e v
  have hactions : IsChaining host.run e.registries.actions := by
    intro key factory hmem
    obtain ⟨rfl, hfactory⟩ := Prod.mk.inj (List.mem_singleton.1 hmem)
    obtain rfl := Option.some.inj hfactory
    exact .inr ⟨_, .inr rfl, chains_chaining "a"⟩
  have hw : v.wire = .error .tooDeep := Value.wire_linked_eq_error_iff.2 ⟨rfl, Nat.le_refl _⟩
  refine ⟨hactions, isSound_linked 255, heldLinks_linked 255, ?_⟩
  intro args
  have hresolve : e.resolveAction host v = .fail .tooDeep := resolve_of_wire_error hw
  rw [hresolve]
  exact Outcome.ends_fail Failure.tooDeep

end Engine
end ViewDoc
