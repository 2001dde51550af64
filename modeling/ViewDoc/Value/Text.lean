import ViewDoc.Binary64.Decimal
import ViewDoc.Text.Quoted
import ViewDoc.Text.Whole
import ViewDoc.Value.Table

/-!
The two texts of a value: the one that is shown, and the quoted one that stands in messages.

What is shown joins the elements of lists by commas and does not look into maps. The quoted text
spells a value out. Both are refused when they would have to write a number of too many digits.
-/

namespace ViewDoc

/-- `h, m`, then seconds and microseconds if they are not zero. -/
def LocalTime.quotedFields (t : LocalTime) : List Nat :=
  let micros := if t.microOfSecond = 0 then [] else [t.microOfSecond]
  let seconds := if t.secondOfMinute = 0 ∧ micros.isEmpty then [] else t.secondOfMinute :: micros
  t.hourOfDay :: t.minuteOfHour :: seconds

/-- An offset in days, seconds and microseconds, of which only the days can be negative. -/
def DateTime.quotedZone (offset : Int) : String :=
  if offset = 0 then "datetime.timezone.utc"
  else
    let rest := offset % Calendar.dayLength
    let parts := [("days", offset / Calendar.dayLength), ("seconds", rest / Calendar.second),
      ("microseconds", rest % Calendar.second)].filter (·.2 ≠ 0)
    let text := ", ".intercalate (parts.map fun p => p.1 ++ "=" ++ Text.whole p.2)
    "datetime.timezone(datetime.timedelta(" ++ text ++ "))"

/-- `Y, M, D`, then the time of day and the zone. -/
def DateTime.quotedFields (t : DateTime) : String :=
  let d := t.clock.date
  let numbers := [d.year, d.month, d.dayOfMonth] ++ t.clock.quotedFields
  let zone := t.offset.toList.map fun offset => "tzinfo=" ++ quotedZone offset
  ", ".intercalate (numbers.map (fun (n : Nat) => Text.whole n) ++ zone)

def TimeOfDay.quotedFields (t : TimeOfDay) : String :=
  ", ".intercalate (t.onFirstDay.quotedFields.map fun (n : Nat) => Text.whole n)

def Date.quotedFields (d : Date) : String :=
  ", ".intercalate ([d.year, d.month, d.dayOfMonth].map fun (n : Nat) => Text.whole n)

namespace Value

def tupleText : List String → String
  | [x] => "(" ++ x ++ ",)"
  | xs => "(" ++ ", ".intercalate xs ++ ")"

mutual

def quoted : Value → String
  | null => "None"
  | bool b => if b then "True" else "False"
  | int n => Text.whole n
  | float x => x.text
  | text s => Text.quoted s
  | markup s => "Markup(" ++ Text.quoted s ++ ")"
  | list items => "[" ++ ", ".intercalate (quotedAll items) ++ "]"
  | tuple items => tupleText (quotedAll items)
  | map entries => "\x7b" ++ ", ".intercalate (quotedEntries entries) ++ "\x7d"
  | date d => "datetime.date(" ++ d.quotedFields ++ ")"
  | dateTime t => "datetime.datetime(" ++ t.quotedFields ++ ")"
  | time t => "datetime.time(" ++ t.quotedFields ++ ")"
  | zone offset => DateTime.quotedZone offset
  | function label _ _ => "<callable " ++ label ++ ">"
  | object name _ _ => "<" ++ name ++ ">"
  | model kind fields _ extra =>
    kind.name ++ "(" ++ ", ".intercalate (quotedFields fields ++ quotedFields extra) ++ ")"
  | rendered element props children =>
    "RenderedNode(element=" ++ quoted element ++ ", props=" ++ quoted props ++ ", children=" ++
      quoted children ++ ")"

def quotedAll : List Value → List String
  | [] => []
  | v :: vs => quoted v :: quotedAll vs

def quotedEntries : List (Value × Value) → List String
  | [] => []
  | (k, v) :: rest => (quoted k ++ ": " ++ quoted v) :: quotedEntries rest

def quotedFields : List (Value × Value) → List String
  | [] => []
  | (k, v) :: rest => ((k.text?.getD "") ++ "=" ++ quoted v) :: quotedFields rest

end

mutual

/-- Whether every number that the quoted text would hold can be written. -/
def isQuotable : Value → Bool
  | int n => Text.isWritable n
  | list items | tuple items => areQuotable items
  | map entries => entriesQuotable entries
  | model _ fields _ extra => entriesQuotable fields && entriesQuotable extra
  | rendered element props children =>
    isQuotable element && isQuotable props && isQuotable children
  | _ => true

def areQuotable : List Value → Bool
  | [] => true
  | v :: vs => isQuotable v && areQuotable vs

def entriesQuotable : List (Value × Value) → Bool
  | [] => true
  | (k, v) :: rest => isQuotable k && isQuotable v && entriesQuotable rest

end

def floatText : Binary64 → String
  | .nan => "NaN"
  | .infinite negative => if negative then "-Infinity" else "Infinity"
  | x =>
    match x.whole? with
    | some n => Text.whole n
    | none => x.text

mutual

/-- The text that is shown for a value. -/
def shown : Value → String
  | null => ""
  | bool b => if b then "true" else "false"
  | int n => Text.whole n
  | float x => floatText x
  | text s | markup s => s
  | list items | tuple items => ",".intercalate (shownAll items)
  | map _ => "[object Object]"
  | date d => d.text
  | dateTime t => t.text
  | time t => t.text
  | zone offset => DateTime.zoneName offset
  | model _ fields _ extra => " ".intercalate (quotedFields fields ++ quotedFields extra)
  | v => quoted v

def shownAll : List Value → List String
  | [] => []
  | v :: vs => shown v :: shownAll vs

end

mutual

/-- Whether every number that the shown text would hold can be written. -/
def isShowable : Value → Bool
  | list items | tuple items => areShowable items
  | map _ => true
  | v => isQuotable v

def areShowable : List Value → Bool
  | [] => true
  | v :: vs => isShowable v && areShowable vs

end

/-- The text of a value as a name or a setting: texts, dates and times as they are, the rest
quoted. -/
def plain : Value → String
  | text s | markup s => s
  | date d => d.text
  | dateTime t => t.text
  | time t => t.text
  | zone offset => DateTime.zoneName offset
  | model _ fields _ extra => " ".intercalate (quotedFields fields ++ quotedFields extra)
  | v => quoted v

end Value
end ViewDoc
