import ViewDoc.Failure
import ViewDoc.Text.Case

/-!
Inline CSS. Names of properties are spelled with hyphens, whether they come with capitals or
underscores.
-/

namespace ViewDoc.Html

/-- A hyphen goes before each ASCII capital but one at the start. -/
def splitCapitals : List Char → List Char
  | [] => []
  | c :: rest => c :: rest.flatMap fun d => if d.isUpper then ['-', d] else [d]

def kebabChars (cs : List Char) : List Char :=
  Text.lower ((splitCapitals cs).map fun c => if c = '_' then '-' else c)

/-- `backgroundColor` and `background_color` become `background-color`. -/
def kebab (s : String) : String := String.ofList (kebabChars s.toList)

def kebabValue (v : Value) : Except Failure String :=
  match v.text? with
  | some s => .ok (kebab s)
  | none => .error .notText

/-- The declarations of a style; null leaves its property out. -/
def declarations : Entries → Except Failure (List String)
  | [] => .ok []
  | (name, v) :: rest =>
    if v.isNull then declarations rest
    else do
      let name ← kebabValue name
      let text ← v.show?
      return (name ++ ": " ++ text) :: (← declarations rest)

def css (style : Entries) : Except Failure String :=
  (declarations style).map fun ds => "; ".intercalate ds

end ViewDoc.Html
