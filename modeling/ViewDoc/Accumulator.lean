import ViewDoc.Path

/-!
How the levels of a dynamic variable come together.

Text, numbers and booleans are collected as results. An object is held back: the next level names a
path into it, and a last one that is left over is a result itself. Null changes nothing.
-/

namespace ViewDoc

inductive Accumulator where
  | collecting (results : List Value)
  | pending (results : List Value) (object : Value)

namespace Accumulator

def start : Accumulator := collecting []

def results : Accumulator → List Value
  | collecting results | pending results _ => results

/-- What was found at a path into the object: an object takes its place, what counts as true is a
result, and anything else leaves the object where it is. -/
def settle (results : List Value) (object found : Value) : Accumulator :=
  if found.isObject then pending results found
  else if found.truthy then collecting (results ++ [found])
  else pending results object

def step (a : Accumulator) (body : Value) : Except Failure Accumulator :=
  if body.isNull then .ok a
  else if body.isObject then .ok (pending a.results body)
  else
    match a with
    | collecting results => .ok (collecting (results ++ [body]))
    | pending results object => (object.at body object).map (settle results object)

/-- The texts of several results, one after the other. -/
def join (results : List Value) : Except Failure Value :=
  (results.mapM Value.show?).map fun texts => .text (String.join texts)

/-- Nothing, the only result, or the text of all of them. -/
def combine : List Value → Except Failure Value
  | [] => .ok .null
  | [v] => .ok v
  | vs => join vs

def finish : Accumulator → Except Failure Value
  | collecting results => combine results
  | pending results object => combine (results ++ [object])

end Accumulator
end ViewDoc
