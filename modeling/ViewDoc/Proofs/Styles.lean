import ViewDoc.Proofs.Depth
import ViewDoc.Style

/-!
When a style cannot be resolved.

Its entries are resolved one by one, and the first that fails decides. Either the models in it stand
too deep inside each other, or it is a selector whose path cannot be written.
-/

namespace ViewDoc.Style

variable {styles : Entries} {byRoot : Bool}

/-- How an entry with this value fails: on the way to its plain form, or as a selector whose root
names a category and whose path has a number too long to be written. -/
inductive PropertyFails (styles : Entries) (v : Value) : Failure → Prop
  | depth {f : Failure} : v.wire = .error f → PropertyFails styles v f
  | path {selector : Entries} : v.wire = .ok (.map selector) →
      (Value.map selector).isSelector = true →
      ((selector.get "root").text?.bind fun name => styles.get? name).isSome = true →
      (selector.get "keys").isShowable = false → PropertyFails styles v .tooManyDigits

theorem PropertyFails.tooDeep_or_tooManyDigits {v : Value} {f : Failure}
    (h : PropertyFails styles v f) : f = .tooDeep ∨ f = .tooManyDigits := by
  cases h with
  | depth h => exact .inl (Value.eq_tooDeep_of_wire h)
  | path => exact .inr rfl

/-- How a style fails: on the way to its plain form, or with the first entry that fails. -/
inductive Fails (styles : Entries) (v : Value) : Failure → Prop
  | depth {f : Failure} : v.wire = .error f → Fails styles v f
  | entry {before after : Entries} {e : Value × Value} {f : Failure} :
      v.wire = .ok (.map (before ++ e :: after)) →
      (∀ d ∈ before, ∀ g, ¬ PropertyFails styles d.2 g) → PropertyFails styles e.2 f →
      Fails styles v f

theorem Fails.tooDeep_or_tooManyDigits {v : Value} {f : Failure} (h : Fails styles v f) :
    f = .tooDeep ∨ f = .tooManyDigits := by
  cases h with
  | depth h => exact .inl (Value.eq_tooDeep_of_wire h)
  | entry _ _ h => exact h.tooDeep_or_tooManyDigits

theorem property_eq_error_iff {selector : Entries} {f : Failure} :
    property styles byRoot selector = .error f ↔ f = .tooManyDigits ∧
      ((selector.get "root").text?.bind fun name => styles.get? name).isSome = true ∧
      (selector.get "keys").isShowable = false := by
  unfold property
  split
  · rename_i hr
    simp [hr]
  · rename_i category hr
    cases hs : (selector.get "keys").isShowable with
    | true => cases byRoot <;> simp [Value.at_eq_ok hs]
    | false =>
      cases byRoot <;> simp only [Value.at_eq_error hs, hr, error_map, Except.error.injEq,
        Bool.false_eq_true, if_false, if_true, Option.isSome_some, and_true] <;> exact eq_comm

theorem resolveEntry_of_wire_error {e : Value × Value} {f : Failure} (h : e.2.wire = .error f) :
    resolveEntry styles byRoot e = .error f := by
  rw [resolveEntry, h]
  rfl

theorem resolveEntry_of_selector {e : Value × Value} {selector : Entries}
    (h : e.2.wire = .ok (.map selector)) (hs : (Value.map selector).isSelector = true) :
    resolveEntry styles byRoot e =
      (property styles byRoot selector).map fun v => [(e.1, v)] := by
  simp only [resolveEntry, h, bind, ok_bind, hs, if_true]
  cases property styles byRoot selector <;> rfl

theorem resolveEntry_of_other {e : Value × Value} {w : Value} (h : e.2.wire = .ok w)
    (hs : w.isSelector = false) : resolveEntry styles byRoot e = .ok [] := by
  simp only [resolveEntry, h, bind, ok_bind, hs, if_neg Bool.false_ne_true]
  split <;> rfl

/-- The plain form of a selector is a map. -/
theorem exists_selector {v w : Value} (h : v.wire = .ok w) (hs : w.isSelector = true) :
    ∃ selector : Entries, v.wire = .ok (.map selector) ∧
      (Value.map selector).isSelector = true := by
  have hm := Value.isModel_of_wire h
  cases w with
  | map selector => exact ⟨selector, h, hs⟩
  | model kind fields given extra => cases hm
  | _ => cases hs

theorem resolveEntry_eq_error_iff {e : Value × Value} {f : Failure} :
    resolveEntry styles byRoot e = .error f ↔ PropertyFails styles e.2 f := by
  constructor
  · intro h
    cases hw : e.2.wire with
    | error g =>
      obtain rfl := Except.error.inj ((resolveEntry_of_wire_error hw).symm.trans h)
      exact .depth hw
    | ok w =>
      cases hs : w.isSelector with
      | false =>
        rw [resolveEntry_of_other hw hs] at h
        cases h
      | true =>
        obtain ⟨selector, hw, hs⟩ := exists_selector hw hs
        rw [resolveEntry_of_selector hw hs, map_eq_error_iff] at h
        obtain ⟨rfl, hr, hk⟩ := property_eq_error_iff.1 h
        exact .path hw hs hr hk
  · intro h
    cases h with
    | depth h => exact resolveEntry_of_wire_error h
    | path hw hs hr hk =>
      rw [resolveEntry_of_selector hw hs, map_eq_error_iff]
      exact property_eq_error_iff.2 ⟨rfl, hr, hk⟩

theorem resolveEntries_eq_mapM (entries : Entries) : resolveEntries styles byRoot entries =
    (entries.mapM (resolveEntry styles byRoot)).map List.flatten := rfl

theorem resolveEntries_eq_error_iff {entries : Entries} {f : Failure} :
    resolveEntries styles byRoot entries = .error f ↔ ∃ before e after,
      entries = before ++ e :: after ∧ (∀ d ∈ before, ∀ g, ¬ PropertyFails styles d.2 g) ∧
        PropertyFails styles e.2 f := by
  have hpasses (d : Value × Value) : (∃ r, resolveEntry styles byRoot d = .ok r) ↔
      ∀ g, ¬ PropertyFails styles d.2 g := by
    simp only [← @resolveEntry_eq_error_iff styles byRoot]
    cases resolveEntry styles byRoot d <;> simp
  simp only [resolveEntries_eq_mapM, map_eq_error_iff, mapM_eq_error_iff, hpasses,
    resolveEntry_eq_error_iff]

theorem resolve_of_wire_error {v : Value} {f : Failure} (h : v.wire = .error f) :
    resolve styles byRoot v = .error f := by
  rw [resolve, h]
  rfl

theorem resolve_of_wire {v : Value} {entries : Entries} (h : v.wire = .ok (.map entries)) :
    resolve styles byRoot v = resolveEntries styles byRoot entries := by
  rw [resolve, h]
  rfl

theorem resolve_eq_error_iff {v : Value} {f : Failure} :
    resolve styles byRoot v = .error f ↔ Fails styles v f := by
  constructor
  · intro h
    cases hw : v.wire with
    | error g =>
      obtain rfl := Except.error.inj ((resolve_of_wire_error hw).symm.trans h)
      exact .depth hw
    | ok w =>
      cases w with
      | map entries =>
        rw [resolve_of_wire hw] at h
        obtain ⟨before, e, after, rfl, hbefore, he⟩ := resolveEntries_eq_error_iff.1 h
        exact .entry hw hbefore he
      | _ =>
        rw [resolve, hw] at h
        cases h
  · intro h
    cases h with
    | depth hw => exact resolve_of_wire_error hw
    | entry hw hbefore he =>
      rw [resolve_of_wire hw]
      exact resolveEntries_eq_error_iff.2 ⟨_, _, _, rfl, hbefore, he⟩

end ViewDoc.Style
