import ViewDoc.Value.Equality

/-!
Tables from keys to things, in the order in which the keys came.

Setting a key that is there already changes what it holds and keeps its place. Main statement: after
a change the keys are the old ones, and the new one behind them if it was not there.
-/

namespace ViewDoc

abbrev Table (β : Type) := List (Value × β)

abbrev Entries := Table Value

namespace Table

variable {β : Type}

def find? (t : Table β) (key : Value) : Option β :=
  (List.find? (fun e => e.1.equal key) t).map (·.2)

def contains (t : Table β) (key : Value) : Bool := List.any t (·.1.equal key)

def keys (t : Table β) : List Value := List.map (·.1) t

def insert : Table β → Value → β → Table β
  | [], key, x => [(key, x)]
  | (k, y) :: rest, key, x =>
    if k.equal key then (k, x) :: rest else (k, y) :: insert rest key x

theorem keys_insert (t : Table β) (key : Value) (x : β) :
    (t.insert key x).keys = if t.contains key then t.keys else t.keys ++ [key] := by
  induction t with
  | nil => rfl
  | cons e rest ih =>
    obtain ⟨k, y⟩ := e
    simp only [keys, contains] at ih
    by_cases h : k.equal key
    · simp [insert, keys, contains, h]
    · simp only [Bool.not_eq_true] at h
      simp only [insert, keys, contains, h, Bool.false_eq_true, if_false, List.map_cons, ih,
        List.any_cons, Bool.false_or]
      split <;> rename_i g <;> simp [g]

theorem find?_insert_self (t : Table β) {key : Value} (h : key.equal key = true) (x : β) :
    (t.insert key x).find? key = some x := by
  induction t with
  | nil => simp [insert, find?, h]
  | cons e rest ih =>
    obtain ⟨k, y⟩ := e
    unfold find? at ih ⊢
    by_cases hk : k.equal key
    · simp [insert, hk]
    · simpa [insert, hk] using ih

def update (t more : Table β) : Table β := List.foldl (fun acc e => insert acc e.1 e.2) t more

def ofList (entries : List (Value × β)) : Table β := update [] entries

def get? (t : Table β) (name : String) : Option β := t.find? (.text name)

end Table

namespace Entries

/-- What a name holds, null if it is absent. -/
def get (t : Entries) (name : String) : Value := (t.get? name).getD .null

end Entries
end ViewDoc
