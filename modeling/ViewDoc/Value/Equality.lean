import ViewDoc.Value

/-!
When two values are equal, and which values can be keys.

Numbers are equal across their types, markup is equal to the text it holds, and maps are equal
whatever the order of their entries. Host functions and objects differ even from their own copies.
Lists and maps, and what holds them, are no keys.
-/

namespace ViewDoc.Value

def whole? : Value → Option Int
  | bool b => some (if b then 1 else 0)
  | int n => some n
  | float x => x.whole?
  | _ => none

mutual

def isHashable : Value → Bool
  | list _ | map _ | rendered .. => false
  | tuple items => areHashable items
  | model _ fields _ _ => fieldsHashable fields
  | _ => true

def areHashable : List Value → Bool
  | [] => true
  | v :: vs => isHashable v && areHashable vs

def fieldsHashable : List (Value × Value) → Bool
  | [] => true
  | (_, v) :: rest => isHashable v && fieldsHashable rest

end

/-- Equality of two numbers; false of what is not a number. -/
def numberEqual : Value → Value → Bool
  | float x, float y => x.equal y
  | a, b =>
    match a.whole?, b.whole? with
    | some m, some n => m == n
    | _, _ => false

mutual

def equal : Value → Value → Bool
  | null, null => true
  | text s, b | markup s, b => b.text? == some s
  | list as, list bs | tuple as, tuple bs => listEqual as bs
  | map es, map fs => es.length == fs.length && within es fs
  | date d, date e => d == e
  | dateTime t, dateTime u => t.equal u
  | time t, time u => t == u
  | zone m, zone n => m == n
  | model k fields _ extra, model l others _ more =>
    k == l && within fields others && extra.length == more.length && within extra more
  | a, b => numberEqual a b

def listEqual : List Value → List Value → Bool
  | [], [] => true
  | a :: as, b :: bs => equal a b && listEqual as bs
  | _, _ => false

/-- Whether every entry has an equal one among the others. -/
def within : List (Value × Value) → List (Value × Value) → Bool
  | [], _ => true
  | (k, v) :: rest, others => (others.any fun e => equal k e.1 && equal v e.2) && within rest others

end

@[simp] theorem equal_text (s t : String) : (text s).equal (text t) = (t == s) := by
  simp [equal, text?]

end ViewDoc.Value
