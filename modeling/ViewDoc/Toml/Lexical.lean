/-!
The small parts of TOML texts: blanks, comments, strings and keys.

Every reader takes a part off the front of a text and gives back what is left.
-/

namespace ViewDoc.Toml

inductive Fault where
  | invalid
  /-- A decimal number has more digits than can be read. -/
  | tooManyDigits
deriving DecidableEq

abbrev Reader (α : Type) := List Char → Except Fault (α × List Char)

def isBlank (c : Char) : Bool := c = ' ' || c = '\t'

/-- Controls do not stand in texts as they are, but for the tab. -/
def isControl (c : Char) : Bool := (c.toNat < 32 && c ≠ '\t') || c.toNat = 127

def skipBlanks (cs : List Char) : List Char := cs.dropWhile isBlank

def skipComment : List Char → Except Fault (List Char)
  | '#' :: rest =>
    if (rest.takeWhile (· ≠ '\n')).any isControl then .error .invalid
    else .ok (rest.dropWhile (· ≠ '\n'))
  | cs => .ok cs

/-- Skips blanks, line ends and comments; `inside` tells whether a comment has begun. -/
def skipLines (inside : Bool) : List Char → Except Fault (List Char)
  | [] => .ok []
  | c :: rest =>
    if c = '\n' then skipLines false rest
    else if inside then if isControl c then .error .invalid else skipLines true rest
    else if isBlank c then skipLines false rest
    else if c = '#' then skipLines true rest
    else .ok (c :: rest)

/-- What a basic string is in the middle of. -/
inductive StringState where
  | plain
  | escape
  /-- So many hexadecimal digits are still to come for a character. -/
  | code (left value : Nat)
  /-- Behind a backslash at the end of a line, still on that line. -/
  | lineEnd
  /-- Behind a backslash at the end of a line, on the lines after it. -/
  | trim

def hexValue? (c : Char) : Option Nat :=
  if c.isDigit then some (c.toNat - '0'.toNat)
  else if 'a' ≤ c ∧ c ≤ 'f' then some (c.toNat - 'a'.toNat + 10)
  else if 'A' ≤ c ∧ c ≤ 'F' then some (c.toNat - 'A'.toNat + 10)
  else none

/-- The character that a single letter behind a backslash stands for. -/
def escaped? : Char → Option Char
  | 'b' => some '\x08'
  | 't' => some '\t'
  | 'n' => some '\n'
  | 'f' => some '\x0c'
  | 'r' => some '\r'
  | '\x22' => some '\x22'
  | '\\' => some '\\'
  | _ => none

def push (c : Char) (r : Except Fault (List Char × List Char)) :
    Except Fault (List Char × List Char) :=
  r.map fun (text, rest) => (c :: text, rest)

/-- The rest of a basic string and what stands behind its closing quotes. -/
def basicString (multiline : Bool) : StringState → Reader (List Char)
  | _, [] => .error .invalid
  | .escape, c :: rest =>
    if c = 'u' then basicString multiline (.code 4 0) rest
    else if c = 'U' then basicString multiline (.code 8 0) rest
    else if multiline && c = '\n' then basicString multiline .trim rest
    else if multiline && isBlank c then basicString multiline .lineEnd rest
    else
      match escaped? c with
      | some d => push d (basicString multiline .plain rest)
      | none => .error .invalid
  | .code left value, c :: rest =>
    match hexValue? c with
    | none => .error .invalid
    | some d =>
      let value := 16 * value + d
      if 1 < left then basicString multiline (.code (left - 1) value) rest
      else if value.isValidChar then push (Char.ofNat value) (basicString multiline .plain rest)
      else .error .invalid
  | .lineEnd, c :: rest =>
    if c = '\n' then basicString multiline .trim rest
    else if isBlank c then basicString multiline .lineEnd rest
    else .error .invalid
  | state, c :: rest =>
    let trimming := match state with
      | .trim => isBlank c || c = '\n'
      | _ => false
    if trimming then basicString multiline .trim rest
    else if c = '\x22' then
      if !multiline then .ok ([], rest)
      else
        match rest with
        | '\x22' :: '\x22' :: after => .ok ([], after)
        | _ => push c (basicString multiline .plain rest)
    else if c = '\\' then basicString multiline .escape rest
    else if isControl c && !(multiline && c = '\n') then .error .invalid
    else push c (basicString multiline .plain rest)

def literalString (cs : List Char) : Except Fault (List Char × List Char) :=
  let text := cs.takeWhile (· ≠ '\x27')
  match cs.dropWhile (· ≠ '\x27') with
  | [] => .error .invalid
  | _ :: rest => if text.any isControl then .error .invalid else .ok (text, rest)

def literalLines : Reader (List Char)
  | [] => .error .invalid
  | '\x27' :: '\x27' :: '\x27' :: rest => .ok ([], rest)
  | c :: rest =>
    if isControl c && c ≠ '\n' then .error .invalid else push c (literalLines rest)

/-- Up to two more quotes in front of the closing ones belong to the text. -/
def trailingQuotes (quote : Char) (r : List Char × List Char) : List Char × List Char :=
  let more := (r.2.take 2).takeWhile (· = quote)
  (r.1 ++ more, r.2.drop more.length)

def skipLineEnd : List Char → List Char
  | '\n' :: rest => rest
  | cs => cs

def string? : List Char → Option (Except Fault (List Char × List Char))
  | '\x22' :: '\x22' :: '\x22' :: rest =>
    some ((basicString true .plain (skipLineEnd rest)).map (trailingQuotes '\x22'))
  | '\x22' :: rest => some (basicString false .plain rest)
  | '\x27' :: '\x27' :: '\x27' :: rest =>
    some ((literalLines (skipLineEnd rest)).map (trailingQuotes '\x27'))
  | '\x27' :: rest => some (literalString rest)
  | _ => none

def isBareKey (c : Char) : Bool := c.isAlphanum || c = '-' || c = '_'

/-- One part of a key: bare, or a string on one line. -/
def keyPart : Reader String
  | [] => .error .invalid
  | c :: rest =>
    if isBareKey c then
      .ok (String.ofList (c :: rest.takeWhile isBareKey), rest.dropWhile isBareKey)
    else
      let text :=
        if c = '\x27' then literalString rest
        else if c = '\x22' then basicString false .plain rest
        else .error .invalid
      text.map fun (text, rest) => (String.ofList text, rest)

/-- A key of at most so many parts with dots between them, and the blanks behind it. -/
def keyParts : Nat → Reader (List String)
  | 0, _ => .error .invalid
  | count + 1, cs => do
    let (part, rest) ← keyPart cs
    match skipBlanks rest with
    | '.' :: rest => do
      let (parts, rest) ← keyParts count (skipBlanks rest)
      return (part :: parts, rest)
    | rest => return ([part], rest)

def key : Reader (List String) := fun cs => keyParts (cs.length + 1) cs

end ViewDoc.Toml
