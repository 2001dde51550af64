import ViewDoc.Path

/-!
How the text of a path falls into segments.

Brackets are rewritten without regard to what stands around them, so that a text which closes all
its brackets can be followed by anything, and each step of a path can be written behind a dot or in
brackets as one likes.
-/

namespace ViewDoc.Path

/-- Every opening bracket has a closing one somewhere behind it. -/
def IsClosed (cs : List Char) : Prop :=
  ∀ before after, cs = before ++ '[' :: after → ']' ∈ after

theorem isClosed_nil : IsClosed [] := by
  intro before after h
  cases before <;> cases h

theorem isClosed_cons_iff {c : Char} {cs : List Char} :
    IsClosed (c :: cs) ↔ (c = '[' → ']' ∈ cs) ∧ IsClosed cs := by
  constructor
  · intro h
    refine ⟨?_, ?_⟩
    · intro hc
      exact h [] cs (by rw [hc]; rfl)
    · intro before after hcs
      exact h (c :: before) after (by rw [hcs]; rfl)
  · intro h before after hcs
    obtain ⟨hc, hrest⟩ := h
    cases before with
    | nil =>
      obtain ⟨rfl, rfl⟩ := List.cons.inj hcs
      exact hc rfl
    | cons b before =>
      obtain ⟨rfl, rfl⟩ := List.cons.inj hcs
      exact hrest before after rfl

theorem isClosed_of_not_mem {cs : List Char} (h : '[' ∉ cs) : IsClosed cs := by
  intro before after hcs
  exact absurd (hcs ▸ List.mem_append_right before List.mem_cons_self) h

mutual

/-- Nothing behind a text reaches into it, as long as its brackets are closed. -/
theorem unbracket_append : (p : List Char) → IsClosed p → (q : List Char) →
    unbracket (p ++ q) = unbracket p ++ unbracket q
  | [], _, _ => rfl
  | c :: p, h, q => by
    obtain ⟨hc, hp⟩ := isClosed_cons_iff.1 h
    rw [List.cons_append, unbracket, unbracket]
    split
    · rename_i hopen
      exact closeBracket_append [] p (hc hopen) hp q
    · rw [unbracket_append p hp q, List.cons_append]

theorem closeBracket_append (inner : List Char) : (p : List Char) → ']' ∈ p → IsClosed p →
    (q : List Char) → closeBracket inner (p ++ q) = closeBracket inner p ++ unbracket q
  | [], h, _, _ => absurd h List.not_mem_nil
  | c :: p, h, hp, q => by
    have hrest := (isClosed_cons_iff.1 hp).2
    rw [List.cons_append, closeBracket, closeBracket]
    split
    · rw [unbracket_append p hrest q]
      split <;> simp
    · rename_i hclose
      have hmem : ']' ∈ p := by
        rcases List.mem_cons.1 h with rfl | h
        · exact absurd rfl hclose
        · exact h
      exact closeBracket_append (inner ++ [c]) p hmem hrest q

end

theorem unbracket_of_not_mem {cs : List Char} (h : '[' ∉ cs) : unbracket cs = cs := by
  induction cs with
  | nil => rfl
  | cons c cs ih =>
    rw [List.mem_cons, not_or] at h
    rw [unbracket, if_neg (Ne.symm h.1), ih h.2]

theorem unbracket_plain_append {s : List Char} (h : '[' ∉ s) (q : List Char) :
    unbracket (s ++ q) = s ++ unbracket q := by
  rw [unbracket_append s (isClosed_of_not_mem h) q, unbracket_of_not_mem h]

theorem closeBracket_of_not_mem {s : List Char} (h : ']' ∉ s) (inner q : List Char) :
    closeBracket inner (s ++ ']' :: q) = closeBracket (inner ++ s) (']' :: q) := by
  induction s generalizing inner with
  | nil => rw [List.nil_append, List.append_nil]
  | cons c s ih =>
    rw [List.mem_cons, not_or] at h
    rw [List.cons_append, closeBracket, if_neg (Ne.symm h.1), ih h.2, List.append_assoc]
    rfl

/-- Brackets around something are a dot in front of it. -/
theorem unbracket_bracketed {s : List Char} (hne : s ≠ []) (h : ']' ∉ s) (q : List Char) :
    unbracket ('[' :: (s ++ ']' :: q)) = '.' :: (s ++ unbracket q) := by
  have hs : s.isEmpty = false := List.isEmpty_eq_false_iff.2 hne
  rw [unbracket, if_pos rfl, closeBracket_of_not_mem h, List.nil_append, closeBracket, if_pos rfl,
    hs, if_neg Bool.false_ne_true]

theorem splitDots_ne_nil (cs : List Char) : splitDots cs ≠ [] := by
  cases cs with
  | nil => simp [splitDots]
  | cons c cs =>
    rw [splitDots]
    split
    · simp
    · split <;> simp

theorem splitDots_append_dot (p q : List Char) :
    splitDots (p ++ '.' :: q) = splitDots p ++ splitDots q := by
  induction p with
  | nil => simp [splitDots]
  | cons c p ih =>
    rw [List.cons_append, splitDots, splitDots, ih]
    split
    · rfl
    · cases hp : splitDots p with
      | nil => exact absurd hp (splitDots_ne_nil p)
      | cons part parts => rfl

theorem splitDots_of_not_mem {cs : List Char} (h : '.' ∉ cs) : splitDots cs = [cs] := by
  induction cs with
  | nil => rfl
  | cons c cs ih =>
    rw [List.mem_cons, not_or] at h
    rw [splitDots, if_neg (Ne.symm h.1), ih h.2]

/-- A path with a dot and another one behind it has the segments of both. -/
theorem segments_append_dot {p : String} (h : IsClosed p.toList) (q : String) :
    segments (p ++ "." ++ q) = segments p ++ segments q := by
  have htext : (p ++ "." ++ q).toList = p.toList ++ '.' :: q.toList := by simp
  have hdot : unbracket ('.' :: q.toList) = '.' :: unbracket q.toList := by
    rw [unbracket, if_neg (by decide)]
  rw [segments, htext, unbracket_append _ h, hdot, splitDots_append_dot, List.map_append]
  rfl

/-- What can be written as a step of a path: something without dots and brackets. -/
structure IsPart (s : String) : Prop where
  nonempty : s ≠ ""
  dot : '.' ∉ s.toList
  opening : '[' ∉ s.toList
  closing : ']' ∉ s.toList

/-- A text that spells steps of a path, each behind a dot or in brackets. -/
inductive Spells : List String → String → Prop
  | nil : Spells [] ""
  | dotted {steps : List String} {t : String} (s : String) : Spells steps t →
      Spells (s :: steps) ("." ++ s ++ t)
  | bracketed {steps : List String} {t : String} (s : String) : Spells steps t →
      Spells (s :: steps) ("[" ++ s ++ "]" ++ t)

theorem unbracket_dotted (s t : List Char) (h : '[' ∉ s) :
    unbracket ('.' :: (s ++ t)) = '.' :: (s ++ unbracket t) := by
  rw [unbracket, if_neg (by decide), unbracket_plain_append h]

/-- Both ways to write a step begin a new segment. -/
theorem splitDots_of_spells {steps : List String} {t : String} (h : Spells steps t)
    (hs : ∀ s ∈ steps, IsPart s) {first : List Char} (hfirst : '.' ∉ first) :
    splitDots (first ++ unbracket t.toList) = first :: steps.map String.toList := by
  induction h generalizing first with
  | nil =>
    rw [String.toList_empty, unbracket, List.append_nil, splitDots_of_not_mem hfirst]
    rfl
  | @dotted steps t s _ ih =>
    have hpart := hs s List.mem_cons_self
    have ih := ih (fun u hu => hs u (List.mem_cons_of_mem _ hu)) hpart.dot
    have htext : ("." ++ s ++ t).toList = '.' :: (s.toList ++ t.toList) := by simp
    rw [htext, unbracket_dotted _ _ hpart.opening, splitDots_append_dot,
      splitDots_of_not_mem hfirst, ih]
    rfl
  | @bracketed steps t s _ ih =>
    have hpart := hs s List.mem_cons_self
    have ih := ih (fun u hu => hs u (List.mem_cons_of_mem _ hu)) hpart.dot
    have hne : s.toList ≠ [] := by simpa using hpart.nonempty
    have htext : ("[" ++ s ++ "]" ++ t).toList = '[' :: (s.toList ++ ']' :: t.toList) := by simp
    rw [htext, unbracket_bracketed hne hpart.closing, splitDots_append_dot,
      splitDots_of_not_mem hfirst, ih]
    rfl

/-- A first segment without dots and brackets, and then any spelling of the other steps. -/
theorem segments_of_spells {first : String} (hdot : '.' ∉ first.toList)
    (hopen : '[' ∉ first.toList) {steps : List String} (hs : ∀ s ∈ steps, IsPart s) {t : String}
    (h : Spells steps t) : segments (first ++ t) = first :: steps := by
  rw [segments, String.toList_append, unbracket_plain_append hopen,
    splitDots_of_spells h hs hdot, List.map_cons, List.map_map, String.ofList_toList]
  congr 1
  exact List.map_id'' (fun s => String.ofList_toList) steps

end ViewDoc.Path
