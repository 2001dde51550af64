import ViewDoc.Format.Ago

/-!
The formats that a selector can ask for.
-/

namespace ViewDoc

inductive FormatKind where
  | time
  | timeAgo
  | toInt
  | toText
deriving DecidableEq

namespace FormatKind

def all : List FormatKind := [time, timeAgo, toInt, toText]

def name : FormatKind → String
  | time => "time"
  | timeAgo => "timeago"
  | toInt => "toInt"
  | toText => "toString"

def ofName? (s : String) : Option FormatKind := all.find? (·.name = s)

end FormatKind

namespace Format

/-- The whole number that a text begins with, if it begins with one. -/
def readInt (s : String) : Except Failure (Option Int) :=
  match Text.numberStart? s.toList with
  | none => .ok none
  | some start =>
    if start.digits.length ≤ Text.digitLimit then .ok (some start.value) else .error .tooManyDigits

/-- The whole number that a value begins with, if it begins with one. -/
def toInt : Value → Except Failure (Option Int)
  | .bool _ => .ok none
  | .int n => .ok (some n)
  | .float x => .ok x.truncate?
  | v => v.show?.bind readInt

def applyKind (c : Clock) (kind : FormatKind) (v : Value) : Outcome Value :=
  match kind with
  | .time => c.display v
  | .timeAgo => Ago.display c v
  | .toInt => do return (← toInt v).elim .null .int
  | .toText => do return .text (← v.show?)

/-- Applies the format that a value names; any other value leaves things as they are. -/
def apply (c : Clock) (kind v : Value) : Outcome Value :=
  match kind.text?.bind FormatKind.ofName? with
  | some k => applyKind c k v
  | none => do
    if kind.truthy then
      Outcome.log .formatting .debug ("Ignoring unknown format " ++ kind.quoted)
    return v

/-- `YYYY-MM-DD` for dates and for times on them, else nothing. -/
def isoDate : Value → String
  | .date d => d.text
  | .dateTime t => t.clock.date.text
  | _ => ""

end Format
end ViewDoc
