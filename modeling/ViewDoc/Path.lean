import ViewDoc.Value.Parts

/-!
Paths into nested values, such as `items[0].name`.

A path is split into segments, brackets being another way to write a dot. A walk takes one step per
segment; a segment that is absent sends the walk on from the default, and a step that cannot be
taken at all ends it there.
-/

namespace ViewDoc.Path

mutual

/-- Turns `[inner]` into `.inner`, from left to right, where the brackets hold something. -/
def unbracket : List Char → List Char
  | [] => []
  | c :: rest => if c = '[' then closeBracket [] rest else c :: unbracket rest

/-- Goes on behind an opening bracket and what it holds so far; one that is never closed stays. -/
def closeBracket (inner : List Char) : List Char → List Char
  | [] => '[' :: inner
  | c :: rest =>
    if c = ']' then
      if inner.isEmpty then '[' :: ']' :: unbracket rest else '.' :: (inner ++ unbracket rest)
    else closeBracket (inner ++ [c]) rest

end

/-- The parts between dots; there is always at least one. -/
def splitDots : List Char → List (List Char)
  | [] => [[]]
  | c :: rest =>
    if c = '.' then [] :: splitDots rest
    else
      match splitDots rest with
      | [] => [[c]]
      | part :: parts => (c :: part) :: parts

def segments (text : String) : List String :=
  (splitDots (unbracket text.toList)).map String.ofList

/-- The segments of the text that is shown for a value. -/
def ofValue (path : Value) : Except Failure (List String) := path.show?.map segments

/-- What a segment says as a position: nothing, a number, or digits without a number. -/
inductive Position where
  | name
  | index (n : Nat)
  | unreadable

def position (segment : String) : Position :=
  let cs := segment.toList
  if cs.isEmpty || !cs.all Text.isDigit then .name
  else if cs.all Text.isDecimal && cs.length ≤ Text.digitLimit then
    .index (Text.decimalValue cs)
  else .unreadable

inductive Step where
  | found (v : Value)
  | absent
  /-- The value cannot be indexed by this segment at all. -/
  | refused

def Step.ofOption : Option Value → Step
  | some v => .found v
  | none => .absent

/-- By name, else by the number that the name is. -/
def stepEntries (entries : Entries) (segment : String) : Step :=
  match entries.get? segment with
  | some v => .found v
  | none =>
    match position segment with
    | .name => .absent
    | .index n => .ofOption (entries.find? (.int n))
    | .unreadable => .refused

/-- By position, or the length. -/
def stepItems (items : List Value) (segment : String) : Step :=
  if segment = "length" then .found (.int items.length)
  else
    match position segment with
    | .name => .absent
    | .index n => .ofOption items[n]?
    | .unreadable => .refused

def numberField (re im numerator denominator : Value) (segment : String) : Step :=
  match segment with
  | "real" => .found re
  | "imag" => .found im
  | "numerator" => .found numerator
  | "denominator" => .found denominator
  | _ => .absent

def dateField (d : Date) (segment : String) : Step :=
  match segment with
  | "year" => .found (.int d.year)
  | "month" => .found (.int d.month)
  | "day" => .found (.int d.dayOfMonth)
  | _ => .absent

/-- A part of the time of day, else what `others` gives. -/
def timeField (t : LocalTime) (offset : Option Int) (others : Step) (segment : String) : Step :=
  match segment with
  | "hour" => .found (.int t.hourOfDay)
  | "minute" => .found (.int t.minuteOfHour)
  | "second" => .found (.int t.secondOfMinute)
  | "microsecond" => .found (.int t.microOfSecond)
  | "fold" => .found (.int 0)
  | "tzinfo" => .found (offset.elim .null .zone)
  | _ => others

/-- The first or last value of a kind that has such, else what `others` gives. -/
def extreme (first last : Value) (others : Step) (segment : String) : Step :=
  match segment with
  | "min" => .found first
  | "max" => .found last
  | _ => others

/-- A part of a rendered node, or its key if its props can be asked for it. -/
def nodeField (element props children : Value) (segment : String) : Step :=
  match segment with
  | "element" => .found element
  | "props" => .found props
  | "children" => .found children
  | "key" =>
    match props.entries "get" with
    | .ok entries => .found (entries.get "key")
    | .error .noEntries => .absent
    | .error _ => .refused
  | _ => .absent

/-- One step of a walk. Of what is neither a map nor a sequence the segment picks an attribute. Only
attributes that hold data are known here: no methods, and none whose name is set between double
underscores but the name of a function. -/
def step : Value → String → Step
  | .null, _ => .refused
  | .map entries, s => stepEntries entries s
  | .list items, s | .tuple items, s => stepItems items s
  | .text t, s => stepItems (t.toList.map fun c => .text (String.singleton c)) s
  | .markup t, s => stepItems (t.toList.map fun c => .markup (String.singleton c)) s
  | .bool b, s =>
    let n : Value := .int (if b then 1 else 0)
    numberField n (.int 0) n (.int 1) s
  | .int n, s => numberField (.int n) (.int 0) (.int n) (.int 1) s
  | .float x, s =>
    match s with
    | "real" => .found (.float x)
    | "imag" => .found (.float (.finite false 0))
    | _ => .absent
  | .date d, s => extreme (.date .first) (.date .last) (dateField d s) s
  | .dateTime t, s =>
    extreme (.dateTime ⟨.first, none⟩) (.dateTime ⟨.last, none⟩)
      (timeField t.clock t.offset (dateField t.clock.date s) s) s
  | .time t, s => extreme (.time .first) (.time .last) (timeField t.onFirstDay none .absent s) s
  | .zone _, s =>
    extreme (.zone (-↑DateTime.offsetLimit)) (.zone DateTime.offsetLimit)
      (if s = "utc" then .found (.zone 0) else .absent) s
  | .function label named _, s =>
    if s = "label" || named && s = "__name__" then .found (.text label) else .absent
  | .object _ attributes guarded, s =>
    if guarded.contains s then .refused else .ofOption (Table.get? attributes s)
  | .model _ fields _ extra, s => .ofOption ((Table.get? fields s).or (Table.get? extra s))
  | .rendered element props children, s => nodeField element props children s

/-- Walks on from a value; an absent segment is replaced by the default. -/
def walk (default : Value) : Value → List String → Value
  | v, [] => v
  | v, s :: rest =>
    match step v s with
    | .found w => walk default w rest
    | .absent => walk default default rest
    | .refused => default

end Path

/-- The value at a path, given as a value of its own. -/
def Value.at (v path default : Value) : Except Failure Value :=
  (Path.ofValue path).map (Path.walk default v)

theorem Value.at_eq_ok {path : Value} (h : path.isShowable = true) (v default : Value) :
    v.at path default = .ok (Path.walk default v (Path.segments path.shown)) := by
  simp [Value.at, Path.ofValue, Value.show?, h, Except.map]

theorem Value.at_eq_error {path : Value} (h : path.isShowable = false) (v default : Value) :
    v.at path default = .error .tooManyDigits := by
  simp [Value.at, Path.ofValue, Value.show?, h, Except.map]

end ViewDoc
