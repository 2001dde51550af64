import ViewDoc.Value.Table

/-!
What a table holds after entries were written to it, one after the other.

Keys keep their places, and each new one goes behind the others when it first comes. What a key
holds is what was written to it last.
-/

namespace ViewDoc

namespace Value

theorem text?_eq_of_equal {a b : Value} (h : a.equal b = true) : a.text? = b.text? := by
  cases a with
  | text s =>
    have hb : b.text? = some s := by simpa [equal] using h
    exact hb.symm
  | markup s =>
    have hb : b.text? = some s := by simpa [equal] using h
    exact hb.symm
  | _ =>
    cases b with
    | text t => simp [equal, numberEqual, whole?] at h
    | markup t => simp [equal, numberEqual, whole?] at h
    | _ => rfl

theorem equal_iff_of_text? {a b : Value} {s : String} (h : b.text? = some s) :
    a.equal b = true ↔ a.text? = some s := by
  cases a with
  | text t =>
    rw [equal, h, text?, beq_iff_eq]
    exact eq_comm
  | markup t =>
    rw [equal, h, text?, beq_iff_eq]
    exact eq_comm
  | _ =>
    cases b with
    | text t => simp [equal, text?, numberEqual, whole?]
    | markup t => simp [equal, text?, numberEqual, whole?]
    | _ => cases h

theorem equal_text_iff {a : Value} {s : String} :
    a.equal (.text s) = true ↔ a.text? = some s := equal_iff_of_text? rfl

/-- Equal values are equal to the same texts. -/
theorem equal_text_congr {a b : Value} (h : a.equal b = true) (s : String) :
    a.equal (.text s) = b.equal (.text s) := by
  rw [Bool.eq_iff_iff, equal_text_iff, equal_text_iff, text?_eq_of_equal h]

theorem equal_of_equal_text {a b : Value} {s : String} (ha : a.equal (.text s) = true)
    (hb : b.equal (.text s) = true) : a.equal b = true := by
  rw [equal_text_iff] at ha hb
  cases a with
  | text t => rw [equal, hb, ← ha, text?, beq_self_eq_true]
  | markup t => rw [equal, hb, ← ha, text?, beq_self_eq_true]
  | _ => cases ha

/-- Neither a key nor anything that equals it equals a value. -/
def IsApart (key v : Value) : Prop :=
  key.equal v = false ∧ ∀ k : Value, k.equal key = true → k.equal v = false

/-- A text is apart from everything but itself. -/
theorem isApart_of_text? {key v : Value} {s : String} (hkey : key.text? = some s)
    (hv : v.text? ≠ some s) : key.IsApart v := by
  have hne {k : Value} (hk : k.text? = some s) : k.equal v = false := by
    apply Bool.eq_false_iff.2
    intro h
    rw [text?_eq_of_equal h] at hk
    exact hv hk
  refine ⟨hne hkey, ?_⟩
  intro k hk
  exact hne ((text?_eq_of_equal hk).trans hkey)

end Value

namespace Table

variable {β : Type}

/-- Puts keys behind others, each of them unless one that is there already equals it. -/
def addKeys (keys more : List Value) : List Value :=
  more.foldl (fun ks k => if ks.any (·.equal k) then ks else ks ++ [k]) keys

/-- The place of a key: that of the first one which equals it. -/
def place? (keys : List Value) (key : Value) : Option Nat := keys.findIdx? (·.equal key)

/-- What was written last, of what some test admits. -/
def lastWrite? (admits : Value → Bool) (writes : List (Value × β)) : Option β :=
  (writes.filter fun e => admits e.1).getLast?.map (·.2)

/-- What a table holds after entries were written to it in turn. -/
structure Written (before : Table β) (writes : List (Value × β)) (after : Table β) : Prop where
  /-- Keys keep their places, and new ones come behind in the order of their first writes. -/
  keys : after.keys = addKeys before.keys (writes.map (·.1))
  /-- Each place holds what was last written to it, or what it held before. Keys have to equal
  themselves, as all do but NaN and what belongs to the host. -/
  values : (∀ e ∈ writes, e.1.equal e.1 = true) → ∀ i, after[i]?.map (·.2) =
    (lastWrite? (fun key => place? after.keys key == some i) writes).or (before[i]?.map (·.2))
  /-- A name holds what was last written to it, or what it held before. -/
  names : ∀ name, after.get? name =
    (lastWrite? (fun key => key.equal (.text name)) writes).or (before.get? name)

theorem addKeys_cons (keys : List Value) (k : Value) (more : List Value) :
    addKeys keys (k :: more) =
      addKeys (if keys.any (·.equal k) then keys else keys ++ [k]) more := rfl

theorem prefix_addKeys (keys more : List Value) : keys <+: addKeys keys more := by
  induction more generalizing keys with
  | nil => exact List.prefix_rfl
  | cons k more ih =>
    rw [addKeys_cons]
    split
    · exact ih keys
    · exact (List.prefix_append keys [k]).trans (ih (keys ++ [k]))

theorem update_cons (t : Table β) (k : Value) (x : β) (writes : List (Value × β)) :
    t.update ((k, x) :: writes) = (t.insert k x).update writes := rfl

theorem update_append (t : Table β) (writes more : List (Value × β)) :
    t.update (writes ++ more) = (t.update writes).update more := List.foldl_append

theorem contains_eq_any_keys (t : Table β) (key : Value) :
    t.contains key = t.keys.any (·.equal key) := by
  rw [contains, keys, List.any_map]
  rfl

theorem keys_update (t : Table β) (writes : List (Value × β)) :
    (t.update writes).keys = addKeys t.keys (writes.map (·.1)) := by
  induction writes generalizing t with
  | nil => rfl
  | cons e writes ih =>
    obtain ⟨k, x⟩ := e
    rw [update_cons, ih, keys_insert, contains_eq_any_keys, List.map_cons, addKeys_cons]

theorem keys_prefix_update (t : Table β) (writes : List (Value × β)) :
    t.keys <+: (t.update writes).keys := by
  rw [keys_update]
  exact prefix_addKeys _ _

theorem update_ne_nil {t : Table β} (h : t ≠ []) (writes : List (Value × β)) :
    t.update writes ≠ [] := by
  intro hnil
  have hprefix := keys_prefix_update t writes
  rw [hnil] at hprefix
  exact h (List.map_eq_nil_iff.1 (List.prefix_nil.1 hprefix))

theorem place?_of_prefix {keys more : List Value} (h : keys <+: more) {key : Value} {i : Nat}
    (hi : place? keys key = some i) : place? more key = some i := by
  obtain ⟨rest, rfl⟩ := h
  rw [place?] at hi
  rw [place?, List.findIdx?_append, hi, Option.some_or]

theorem place?_cons (k : Value) (keys : List Value) (key : Value) :
    place? (k :: keys) key = if k.equal key then some 0 else (place? keys key).map (· + 1) := by
  rw [place?, List.findIdx?_cons]
  rfl

/-- A key that equals itself has a place once it is written, and what is written stands there. -/
theorem getElem?_insert (t : Table β) {key : Value} (hk : key.equal key = true) (x : β) :
    ∃ j, place? (t.insert key x).keys key = some j ∧
      ∀ i, (t.insert key x)[i]?.map (·.2) = if j = i then some x else t[i]?.map (·.2) := by
  induction t with
  | nil =>
    refine ⟨0, by simp [insert, keys, place?_cons, hk], ?_⟩
    intro i
    cases i <;> simp [insert]
  | cons e rest ih =>
    obtain ⟨k, y⟩ := e
    rw [insert]
    by_cases hkey : k.equal key = true
    · rw [if_pos hkey]
      refine ⟨0, by simp [keys, place?_cons, hkey], ?_⟩
      intro i
      cases i <;> simp
    · obtain ⟨j, hj, hv⟩ := ih
      rw [if_neg hkey]
      refine ⟨j + 1, ?_, ?_⟩
      · change place? (k :: keys (insert rest key x)) key = some (j + 1)
        rw [place?_cons, if_neg hkey, hj]
        rfl
      · intro i
        cases i with
        | zero => simp
        | succ i => simpa using hv i

theorem get?_insert (t : Table β) (key : Value) (x : β) (name : String) :
    (t.insert key x).get? name = if key.equal (.text name) then some x else t.get? name := by
  simp only [get?, find?]
  induction t with
  | nil =>
    rw [insert]
    by_cases h : key.equal (.text name) = true <;> simp [h]
  | cons e rest ih =>
    obtain ⟨k, y⟩ := e
    rw [insert]
    by_cases hkey : k.equal key = true
    · rw [if_pos hkey, List.find?_cons, List.find?_cons, ← Value.equal_text_congr hkey name]
      cases k.equal (.text name) <;> rfl
    · rw [if_neg hkey, List.find?_cons, List.find?_cons]
      cases hname : k.equal (.text name) with
      | false => exact ih
      | true =>
        have hne : key.equal (.text name) = false := by
          apply Bool.eq_false_iff.2
          intro h
          exact hkey (Value.equal_of_equal_text hname h)
        simp [hne]

theorem find?_insert_of_isApart {key k : Value} (h : key.IsApart k) (t : Table β) (x : β) :
    (t.insert key x).find? k = t.find? k := by
  simp only [find?]
  induction t with
  | nil => simp [insert, h.1]
  | cons e rest ih =>
    obtain ⟨k', y⟩ := e
    rw [insert]
    by_cases hkey : k'.equal key = true
    · rw [if_pos hkey, List.find?_cons, List.find?_cons, h.2 k' hkey]
    · rw [if_neg hkey, List.find?_cons, List.find?_cons]
      cases k'.equal k with
      | true => rfl
      | false => exact ih

theorem lastWrite?_cons (admits : Value → Bool) (k : Value) (x : β) (writes : List (Value × β)) :
    lastWrite? admits ((k, x) :: writes) =
      (lastWrite? admits writes).or (if admits k then some x else none) := by
  rw [lastWrite?, lastWrite?, List.filter_cons]
  by_cases hk : admits k = true
  · rw [if_pos hk, if_pos hk, List.getLast?_cons]
    cases (List.filter (fun e => admits e.1) writes).getLast? <;> rfl
  · rw [if_neg hk, if_neg hk, Option.or_none]

theorem get?_update (t : Table β) (writes : List (Value × β)) (name : String) :
    (t.update writes).get? name =
      (lastWrite? (fun key => key.equal (.text name)) writes).or (t.get? name) := by
  induction writes generalizing t with
  | nil => rfl
  | cons e writes ih =>
    obtain ⟨k, x⟩ := e
    rw [update_cons, ih, get?_insert, lastWrite?_cons, Option.or_assoc]
    cases k.equal (.text name) <;> rfl

theorem getElem?_update (t : Table β) {writes : List (Value × β)}
    (hw : ∀ e ∈ writes, e.1.equal e.1 = true) (i : Nat) :
    (t.update writes)[i]?.map (·.2) =
      (lastWrite? (fun key => place? (t.update writes).keys key == some i) writes).or
        (t[i]?.map (·.2)) := by
  induction writes generalizing t with
  | nil => rfl
  | cons e writes ih =>
    obtain ⟨k, x⟩ := e
    have hk : k.equal k = true := hw (k, x) List.mem_cons_self
    obtain ⟨j, hj, hv⟩ := getElem?_insert t hk x
    have hplace : place? ((t.insert k x).update writes).keys k = some j :=
      place?_of_prefix (keys_prefix_update _ writes) hj
    rw [update_cons, ih _ fun e he => hw e (List.mem_cons_of_mem _ he), lastWrite?_cons, hplace,
      Option.or_assoc, hv]
    by_cases hij : j = i <;> simp [hij]

theorem written_update (t : Table β) (writes : List (Value × β)) :
    Written t writes (t.update writes) where
  keys := keys_update t writes
  values := fun hw i => getElem?_update t hw i
  names := get?_update t writes

/-- What holds of a table, and still holds after each write, holds after all of them. -/
theorem update_induction {P : Table β → Prop} {writes : List (Value × β)}
    (hw : ∀ e ∈ writes, ∀ t, P t → P (t.insert e.1 e.2)) {t : Table β} (ht : P t) :
    P (t.update writes) := by
  induction writes generalizing t with
  | nil => exact ht
  | cons e writes ih =>
    exact ih (fun e he => hw e (List.mem_cons_of_mem _ he)) (hw e List.mem_cons_self t ht)

/-- What all values have in common, those have that are written. -/
theorem forall_mem_insert {P : β → Prop} {t : Table β} (ht : ∀ e ∈ t, P e.2) {x : β} (hx : P x)
    (key : Value) : ∀ e ∈ t.insert key x, P e.2 := by
  induction t with
  | nil =>
    intro e he
    rw [List.mem_singleton.1 he]
    exact hx
  | cons head rest ih =>
    obtain ⟨k, y⟩ := head
    have hrest : ∀ e ∈ rest, P e.2 := fun e he => ht e (List.mem_cons_of_mem _ he)
    intro e he
    rw [insert] at he
    by_cases hk : k.equal key = true
    · rw [if_pos hk] at he
      rcases List.mem_cons.1 he with rfl | he
      · exact hx
      · exact hrest e he
    · rw [if_neg hk] at he
      rcases List.mem_cons.1 he with rfl | he
      · exact ht (k, y) List.mem_cons_self
      · exact ih hrest e he

theorem forall_mem_update {P : β → Prop} {t : Table β} {writes : List (Value × β)}
    (ht : ∀ e ∈ t, P e.2) (hw : ∀ e ∈ writes, P e.2) : ∀ e ∈ t.update writes, P e.2 :=
  update_induction (P := fun t => ∀ e ∈ t, P e.2)
    (fun e he _ ht => forall_mem_insert ht (hw e he) e.1) ht

end Table
end ViewDoc
