import ViewDoc.Proofs.PathTexts

/-!
How walks into a value go on from one another.

Two paths with a dot between them are one path, and its walk goes on where that of the first one
ended, in the default too if it came to be there. Only a step that cannot be taken at all ends
everything.
-/

namespace ViewDoc

namespace Path

/-- A walk comes to a step that cannot be taken. -/
inductive Stops (default : Value) : Value → List String → Prop
  | here {v : Value} {s : String} (rest : List String) : step v s = .refused →
      Stops default v (s :: rest)
  | found {v w : Value} {s : String} {rest : List String} : step v s = .found w →
      Stops default w rest → Stops default v (s :: rest)
  | absent {v : Value} {s : String} {rest : List String} : step v s = .absent →
      Stops default default rest → Stops default v (s :: rest)

variable {default v w : Value} {s : String}

theorem walk_cons_of_found (h : step v s = .found w) (rest : List String) :
    walk default v (s :: rest) = walk default w rest := by
  rw [walk, h]

theorem walk_cons_of_absent (h : step v s = .absent) (rest : List String) :
    walk default v (s :: rest) = walk default default rest := by
  rw [walk, h]

theorem walk_cons_of_refused (h : step v s = .refused) (rest : List String) :
    walk default v (s :: rest) = default := by
  rw [walk, h]

theorem not_stops_nil : ¬ Stops default v [] := by
  intro h
  cases h

theorem stops_cons_of_found (h : step v s = .found w) {rest : List String} :
    Stops default v (s :: rest) ↔ Stops default w rest := by
  refine ⟨?_, .found h⟩
  intro hstops
  cases hstops with
  | here _ hs => simp [h] at hs
  | found hs hstops => rwa [Step.found.inj (h.symm.trans hs)]
  | absent hs => simp [h] at hs

theorem stops_cons_of_absent (h : step v s = .absent) {rest : List String} :
    Stops default v (s :: rest) ↔ Stops default default rest := by
  refine ⟨?_, .absent h⟩
  intro hstops
  cases hstops with
  | here _ hs => simp [h] at hs
  | found hs => simp [h] at hs
  | absent _ hstops => exact hstops

/-- Nothing behind the step that cannot be taken matters. -/
theorem walk_append_of_stops {p : List String} (h : Stops default v p) (q : List String) :
    walk default v (p ++ q) = default := by
  induction p generalizing v with
  | nil => exact absurd h not_stops_nil
  | cons s p ih =>
    rw [List.cons_append]
    cases hs : step v s with
    | found w =>
      rw [walk_cons_of_found hs]
      exact ih ((stops_cons_of_found hs).1 h)
    | absent =>
      rw [walk_cons_of_absent hs]
      exact ih ((stops_cons_of_absent hs).1 h)
    | refused => exact walk_cons_of_refused hs (p ++ q)

theorem walk_of_stops {p : List String} (h : Stops default v p) : walk default v p = default := by
  have happend := walk_append_of_stops h []
  rwa [List.append_nil] at happend

theorem walk_append_of_not_stops {p : List String} (h : ¬ Stops default v p) (q : List String) :
    walk default v (p ++ q) = walk default (walk default v p) q := by
  induction p generalizing v with
  | nil => rfl
  | cons s p ih =>
    rw [List.cons_append]
    cases hs : step v s with
    | found w =>
      rw [walk_cons_of_found hs, walk_cons_of_found hs]
      exact ih (mt (stops_cons_of_found hs).2 h)
    | absent =>
      rw [walk_cons_of_absent hs, walk_cons_of_absent hs]
      exact ih (mt (stops_cons_of_absent hs).2 h)
    | refused => exact absurd (.here p hs) h

/-- A path that is a text always leads somewhere. -/
theorem at_text (v default : Value) (path : String) :
    v.at (.text path) default = .ok (walk default v (segments path)) :=
  Value.at_eq_ok rfl v default

/-- A path that closes its brackets, a dot and any other path: the segments of one and then those of
the other, and a walk that goes on from the first to the second unless it stops in the first. -/
theorem at_joined (v default : Value) {p : String} (h : IsClosed p.toList) (q : String) :
    segments (p ++ "." ++ q) = segments p ++ segments q ∧
    (Stops default v (segments p) → v.at (.text (p ++ "." ++ q)) default = .ok default) ∧
    (¬ Stops default v (segments p) → ∃ w x, v.at (.text p) default = .ok w ∧
      w.at (.text q) default = .ok x ∧ v.at (.text (p ++ "." ++ q)) default = .ok x) := by
  have hsegments := segments_append_dot h q
  refine ⟨hsegments, ?_, ?_⟩
  · intro hstops
    rw [at_text, hsegments, walk_append_of_stops hstops]
  · intro hstops
    refine ⟨_, _, at_text v default p, at_text _ default q, ?_⟩
    rw [at_text, hsegments, walk_append_of_not_stops hstops]

/-- The first path leaves the list for the default, where the second goes on behind brackets that
are never closed; a third one stops at null. -/
theorem at_joined_in_default :
    let default : Value := .map [(.text "a[", .text "b"), (.text "c", .null)]
    let v : Value := .map [(.text "xs", .list [.int 1])]
    IsClosed "xs[4]".toList ∧ ¬ Stops default v (segments "xs[4]") ∧
      segments ("xs[4]" ++ "." ++ "a[") = ["xs", "4", "a["] ∧
      v.at (.text ("xs[4]" ++ "." ++ "a[")) default = .ok (.text "b") ∧
      IsClosed "xs[4].c.d".toList ∧ Stops default v (segments "xs[4].c.d") ∧
      v.at (.text ("xs[4].c.d" ++ "." ++ "a[")) default = .ok default := by
  intro default v
  have hclosed : IsClosed "xs[4]".toList := by simp [isClosed_cons_iff, isClosed_nil]
  have hlonger : IsClosed "xs[4].c.d".toList := by simp [isClosed_cons_iff, isClosed_nil]
  have hfirst : segments "xs[4]" = ["xs", "4"] := by decide
  have hgoes : ¬ Stops default v (segments "xs[4]") := by
    rw [hfirst, stops_cons_of_found rfl, stops_cons_of_absent rfl]
    exact not_stops_nil
  have hsecond : segments "xs[4].c.d" = ["xs", "4", "c", "d"] := by decide
  have hstops : Stops default v (segments "xs[4].c.d") := by
    rw [hsecond]
    exact .found rfl (.absent rfl (.found rfl (.here [] rfl)))
  obtain ⟨hjoined, -, hon⟩ := at_joined v default hclosed "a["
  obtain ⟨w, x, hw, hx, hall⟩ := hon hgoes
  obtain rfl : default = w := Except.ok.inj hw
  obtain rfl : Value.text "b" = x := Except.ok.inj hx
  refine ⟨hclosed, hgoes, hjoined, hall, hlonger, hstops, ?_⟩
  exact (at_joined v default hlonger "a[").2.1 hstops

end Path
end ViewDoc
