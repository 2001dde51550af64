import ViewDoc.Binary64
import ViewDoc.Calendar.DateTime

/-!
The data that view documents, registries and resolved views are made of.

Maps keep their entries in the order of insertion. Markup is text that may stand in HTML as it is.
Functions and objects belong to the host: a function is a label with the data it has captured, an
object a name with attributes that can be read and others that raise. Models are validated
descriptors, and a rendered node can itself be a value.
-/

namespace ViewDoc

inductive ModelKind where
  | selector
  | action
  | node
deriving DecidableEq

inductive Value where
  | null
  | bool (b : Bool)
  | int (n : Int)
  | float (x : Binary64)
  | text (s : String)
  | markup (s : String)
  | list (items : List Value)
  | tuple (items : List Value)
  | map (entries : List (Value × Value))
  | date (d : Date)
  | dateTime (t : DateTime)
  | time (t : TimeOfDay)
  /-- A zone by its distance from universal time, in microseconds to the east. -/
  | zone (offset : Int)
  /-- A host function; `named` tells whether it knows its own name. -/
  | function (label : String) (named : Bool) (captured : List Value)
  | object (name : String) (attributes : List (Value × Value)) (guarded : List String)
  /-- All declared fields under their attribute names, the names of those that were given, and the
  fields that are not declared. -/
  | model (kind : ModelKind) (fields : List (Value × Value)) (given : List String)
      (extra : List (Value × Value))
  /-- The children are null or a list, of rendered nodes and of null for a place left empty. -/
  | rendered (element props children : Value)
deriving BEq, Inhabited

namespace Value

def isNull : Value → Bool
  | null => true
  | _ => false

def truthy : Value → Bool
  | null => false
  | bool b => b
  | int n => n != 0
  | float x => !x.isZero
  | text s | markup s => !s.isEmpty
  | list items | tuple items => !items.isEmpty
  | map entries => !entries.isEmpty
  | _ => true

def text? : Value → Option String
  | text s | markup s => some s
  | _ => none

def isText (v : Value) : Bool := v.text?.isSome

def items? : Value → Option (List Value)
  | list items | tuple items => some items
  | _ => none

def entries? : Value → Option (List (Value × Value))
  | map entries => some entries
  | _ => none

def isFunction : Value → Bool
  | function .. => true
  | _ => false

def isModel : Value → Bool
  | model .. => true
  | _ => false

/-- Whether a value is held back to be indexed further: all but null, text, numbers and booleans. -/
def isObject : Value → Bool
  | null | bool _ | int _ | float _ | text _ | markup _ => false
  | _ => true

def isTextOrNumber : Value → Bool
  | int _ | float _ | text _ | markup _ => true
  | _ => false

mutual

/-- A measure of the size of a value, for recursion through its parts. The parts of a rendered node
count as entries under their names. -/
def weight : Value → Nat
  | list items | tuple items | function _ _ items => weights items + 1
  | map entries | object _ entries _ => entriesWeight entries + 1
  | model _ fields _ extra => entriesWeight fields + entriesWeight extra + 1
  | rendered element props children => weight element + weight props + weight children + 4
  | _ => 1

def weights : List Value → Nat
  | [] => 0
  | v :: vs => weight v + weights vs

def entriesWeight : List (Value × Value) → Nat
  | [] => 0
  | (k, v) :: rest => weight k + weight v + entriesWeight rest

end

theorem weight_pos (v : Value) : 0 < v.weight := by
  cases v <;> simp [weight]

theorem weight_le_weights {v : Value} {vs : List Value} (h : v ∈ vs) : v.weight ≤ weights vs := by
  induction vs with
  | nil => simp at h
  | cons w ws ih =>
    rcases List.mem_cons.1 h with rfl | h
    · simp [weights]
    · have := ih h
      simp only [weights]
      omega

theorem weight_le_entriesWeight {k v : Value} {es : List (Value × Value)} (h : (k, v) ∈ es) :
    v.weight ≤ entriesWeight es := by
  induction es with
  | nil => simp at h
  | cons e rest ih =>
    obtain ⟨a, b⟩ := e
    rcases List.mem_cons.1 h with h | h
    · obtain ⟨rfl, rfl⟩ := Prod.mk.inj h
      simp only [entriesWeight]
      omega
    · have := ih h
      simp only [entriesWeight]
      omega

end Value

namespace ModelKind

def name : ModelKind → String
  | selector => "Selector"
  | action => "ActionDescriptor"
  | node => "ComponentNode"

end ModelKind
end ViewDoc
