import ViewDoc.Html.Css
import ViewDoc.Html.Escape
import ViewDoc.Node
import ViewDoc.Outcome

/-!
HTML of rendered trees.

A node is a tag with attributes around its children or, without a list of children, around the text
of its prop `children`. An element that is a function is called with the props and what is inside.
-/

namespace ViewDoc.Html

/-- Elements without content and end tag. -/
def voidElements : List String :=
  ["area", "br", "col", "hr", "img", "input", "link", "meta", "source"]

def skippedNames : List String := ["key", "children"]

def isSkipped (name v : Value) : Bool :=
  skippedNames.any (fun skipped => name.equal (.text skipped)) ||
    match v with
    | .null | .bool false | .function .. => true
    | _ => false

def attributeName (name : Value) : Value :=
  if name.equal (.text "className") then .text "class" else name

/-- The value of an attribute: a style becomes inline CSS. -/
def attributeValue (name v : Value) : Except Failure Value :=
  match v with
  | .map style => if name.equal (.text "style") then (css style).map .text else .ok v
  | _ => .ok v

/-- One attribute; true stands for its name alone. -/
def attributeText (prop v : Value) : Except Failure String := do
  let name := attributeName prop
  match ← attributeValue name v with
  | .bool true => ofValue name
  | v => return (← ofValue name) ++ "=\"" ++ escape (← v.show?) ++ "\""

def attributes : Entries → Except Failure (List String)
  | [] => .ok []
  | (name, v) :: rest =>
    if isSkipped name v then attributes rest
    else do
      let here ← attributeText name v
      return here :: (← attributes rest)

def opening (tag : String) (props : Entries) : Except Failure String := do
  let attrs := " ".intercalate (← attributes props)
  return "<" ++ escape tag ++ (if attrs.isEmpty then "" else " " ++ attrs) ++ ">"

/-- A tag around its content; void elements drop it. -/
def wrap (tag : String) (props : Entries) (inner : String) : Except Failure String := do
  let start ← opening tag props
  if voidElements.contains tag then return start
  return start ++ inner ++ "</" ++ escape tag ++ ">"

def tagOf (element : Value) : Except Failure String :=
  element.show?.map fun tag => if tag.isEmpty then "div" else tag

/-- Puts the element of a node around what is inside. -/
def enclose (call : Value → List Value → Outcome Value) (element props : Value) (inner : String) :
    Outcome String :=
  if element.isFunction then do
    ofValue (← call element [props, .markup inner])
  else do
    wrap (← tagOf element) (← props.entries "items") inner

mutual

def ofNode (call : Value → List Value → Outcome Value) : Node → Outcome String
  | ⟨element, props, none⟩ => do
    let content ← (Entries.get (← props.entries "get") "children").show?
    enclose call element props (escape content)
  | ⟨element, props, some children⟩ => do
    let inner ← ofNodes call children
    enclose call element props inner

def ofNodes (call : Value → List Value → Outcome Value) : List (Option Node) → Outcome String
  | [] => return ""
  | n :: rest => do
    let here ← ofNode? call n
    return here ++ (← ofNodes call rest)

/-- No node gives no HTML. -/
def ofNode? (call : Value → List Value → Outcome Value) : Option Node → Outcome String
  | none => return ""
  | some n => ofNode call n

end

end ViewDoc.Html
