import ViewDoc.Text.CaseTable

/-!
Lower and upper case of whole texts.

Some characters become several. A capital sigma at the end of a word, after a cased letter and with
none to follow, becomes the final form of the small one.
-/

namespace ViewDoc.Text

def inRanges (rs : List (Nat × Nat)) (c : Char) : Bool :=
  rs.any fun r => r.1 ≤ c.toNat && c.toNat ≤ r.2

/-- The image of one character under a table of runs and a table of longer images. -/
def mapCase (runs : List (Nat × Nat × Nat × Int)) (long : List (Nat × List Nat)) (c : Char) :
    List Char :=
  let n := c.toNat
  match long.find? (·.1 = n) with
  | some (_, image) => image.map Char.ofNat
  | none =>
    match runs.find? fun (first, last, stride, _) =>
        first ≤ n && n ≤ last && (n - first) % stride == 0 with
    | some (_, _, _, distance) => [Char.ofNat (n + distance).toNat]
    | none => [c]

def isCased : Char → Bool := inRanges CaseTable.cased
def isIgnorable : Char → Bool := inRanges CaseTable.ignorable

/-- Whether the next character that counts is a cased one. -/
def startsCased (cs : List Char) : Bool :=
  match cs.dropWhile isIgnorable with
  | c :: _ => isCased c
  | [] => false

/-- Lower-cases the rest of a text, given what stands before it in reverse. -/
def lowerFrom (before : List Char) : List Char → List Char
  | [] => []
  | c :: rest =>
    let image :=
      if c = 'Σ' then
        if startsCased before && !startsCased rest then ['ς'] else ['σ']
      else mapCase CaseTable.lower CaseTable.longLower c
    image ++ lowerFrom (c :: before) rest

def lower (cs : List Char) : List Char := lowerFrom [] cs

def upper (cs : List Char) : List Char :=
  cs.flatMap (mapCase CaseTable.upper CaseTable.longUpper)

end ViewDoc.Text
