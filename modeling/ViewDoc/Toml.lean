import ViewDoc.Toml.Scalar
import ViewDoc.Toml.Table

/-!
Reading TOML documents.
-/

namespace ViewDoc.Toml

def expect (c : Char) (cs : List Char) : Except Fault (List Char) :=
  match cs with
  | d :: rest => if d = c then .ok rest else invalid
  | [] => invalid

mutual

/-- A value; `depth` bounds the steps through its parts. -/
def value (depth : Nat) (cs : List Char) : Except Fault (Value × List Char) :=
  match depth with
  | 0 => invalid
  | depth + 1 =>
    match string? cs, cs with
    | some r, _ => r.map fun (text, rest) => (.text (String.ofList text), rest)
    | none, '[' :: rest => do
      match ← skipLines false rest with
      | ']' :: rest => return (.list [], rest)
      | rest => items depth [] rest
    | none, '\x7b' :: rest =>
      match skipBlanks rest with
      | '\x7d' :: rest => return (.map [], rest)
      | rest => inlineEntries depth [] [] rest
    | none, _ => scalar cs

/-- The items of a list from the next one on; a comma may follow the last. -/
def items (depth : Nat) (before : List Value) (cs : List Char) : Except Fault (Value × List Char) :=
  match depth with
  | 0 => invalid
  | depth + 1 => do
    let (v, rest) ← value depth cs
    let before := before ++ [v]
    match ← skipLines false rest with
    | ']' :: rest => return (.list before, rest)
    | ',' :: rest =>
      match ← skipLines false rest with
      | ']' :: rest => return (.list before, rest)
      | rest => items depth before rest
    | _ => invalid

/-- The entries of a table on one line from the next one on. -/
def inlineEntries (depth : Nat) (table : Entries) (frozen : List (List String)) (cs : List Char) :
    Except Fault (Value × List Char) :=
  match depth with
  | 0 => invalid
  | depth + 1 => do
    let (path, rest) ← key cs
    let (v, rest) ← value depth (skipBlanks (← expect '=' rest))
    if isFrozen frozen path then invalid
    else
      let table ← addAt false path v table
      match skipBlanks rest with
      | '\x7d' :: rest => return (.map table, rest)
      | ',' :: rest =>
        let frozen := if isCompound v then path :: frozen else frozen
        inlineEntries depth table frozen (skipBlanks rest)
      | _ => invalid

end

def valueAt (cs : List Char) : Except Fault (Value × List Char) := value (2 * cs.length + 2) cs

/-- `key = value`. -/
def entry (d : Draft) (cs : List Char) : Except Fault (Draft × List Char) := do
  let (path, rest) ← key cs
  let (v, rest) ← valueAt (skipBlanks (← expect '=' rest))
  return (← d.addEntry path v, rest)

/-- `[path]` or `[[path]]`, behind the first bracket. -/
def declaration (d : Draft) (cs : List Char) : Except Fault (Draft × List Char) := do
  match cs with
  | '[' :: rest => do
    let (path, rest) ← key (skipBlanks rest)
    let d ← d.declareListItem path
    return (d, ← expect ']' (← expect ']' rest))
  | rest => do
    let (path, rest) ← key (skipBlanks rest)
    let d ← d.declareTable path
    return (d, ← expect ']' rest)

/-- What stands on a line before its comment. -/
def statement (d : Draft) (cs : List Char) : Except Fault (Draft × List Char) :=
  match cs with
  | [] => .ok (d, [])
  | c :: rest =>
    if isBareKey c || c = '\x22' || c = '\x27' then entry d cs
    else if c = '[' then declaration d rest
    else if c = '\n' || c = '#' then .ok (d, cs)
    else invalid

/-- Reads at most so many lines. -/
def lines : Nat → Draft → List Char → Except Fault Draft
  | 0, _, _ => invalid
  | count + 1, d, cs => do
    let (d, rest) ← statement d (skipBlanks cs)
    match ← skipComment (skipBlanks rest) with
    | [] => return d
    | '\n' :: rest => lines count d rest
    | _ => invalid

/-- Line ends are line feeds, with or without a carriage return. -/
def joinLineEnds : List Char → List Char
  | [] => []
  | '\r' :: '\n' :: rest => '\n' :: joinLineEnds rest
  | c :: rest => c :: joinLineEnds rest

def read (cs : List Char) : Except Fault Entries :=
  (lines (cs.length + 1) .empty (joinLineEnds cs)).map (·.table)

end ViewDoc.Toml
