import ViewDoc.Value.Text

/-!
The ways in which resolving, rendering and loading can fail.
-/

namespace ViewDoc

/-- A problem found in the fields of a model: where, and of which kind. -/
structure Problem where
  path : List String
  kind : String
deriving DecidableEq

namespace Problem

def text (p : Problem) : String := ".".intercalate p.path ++ ":" ++ p.kind

/-- The same problem seen from one level further out. -/
def within (step : String) (p : Problem) : Problem := { p with path := step :: p.path }

end Problem

inductive ManifestFault where
  | missing
  | invalid
  /-- A part of the manifest that has to be a table is something else. -/
  | notTable (part : String)
deriving DecidableEq

def ManifestFault.message (path : String) : ManifestFault → String
  | missing => "Renderer manifest not found: " ++ path
  | invalid => "Invalid TOML in " ++ path
  | notTable part => "[" ++ part ++ "] in " ++ path ++ " must be a table"

inductive Failure where
  | notSelector (level : Value) (context : Value)
  | manifest (fault : ManifestFault)
  | invalidModel (problems : List Problem)
  | notComponentEntry (v : Value)
  | host (message : String)
  | notText
  | notCallable
  | missingArgument
  | unhashable
  /-- Parts were wanted from something that has none. -/
  | notPairs
  /-- A part that should have been a key and a value was not. -/
  | badPair
  /-- A field that is set anyway was given as well, or one without a name. -/
  | repeatedField
  | unknownField
  /-- Entries or items were wanted from something that has none. -/
  | noEntries
  /-- An item was to be set in something that takes none. -/
  | notAssignable
  | outsideItems
  | absentKey
  /-- A number has too many digits to be read or written. -/
  | tooManyDigits
  /-- Arithmetic left the years 1 to 9999. -/
  | outsideCalendar
  | unknownLogLevel
  | badLogLevel
  | notUnicode
  /-- Models stand inside each other too deep to be written in plain form. -/
  | tooDeep
  /-- Host code nested its calls deeper than the host has room for. -/
  | nesting

namespace Failure

/-- The message about a level that is not a selector, without its context. -/
def selectorMessage (level : Value) : String :=
  "Could not resolve the following variable: " ++ level.quoted ++
    ". Missing \"root\" or \"keys\" properties."

/-- A message with the value it is about behind it, unless that is null. -/
def withContext (message : String) (context : Value) : String :=
  if context.isNull then message else message ++ " (in " ++ context.quoted ++ ")"

/-- A value whose quoted text is wanted, if all its numbers can be written. -/
def quotable (v : Value) : Except Failure Value :=
  if v.isQuotable then .ok v else .error .tooManyDigits

def selectorMessage? (level : Value) : Except Failure String :=
  (quotable level).map selectorMessage

def withContext? (message : String) (context : Value) : Except Failure String :=
  (quotable context).map (withContext message)

/-- The failure about a level that is not a selector, or about the numbers in its message. -/
def ofLevel (level context : Value) : Failure :=
  if level.isQuotable && context.isQuotable then .notSelector level context else .tooManyDigits

/-- The text of a failure about a manifest at a path or about a value, where it has one. -/
def message (path : String) : Failure → String
  | notSelector level context => withContext (selectorMessage level) context
  | manifest fault => fault.message path
  | invalidModel problems => "; ".intercalate (problems.map Problem.text)
  | notComponentEntry v => "Cannot use " ++ v.quoted ++ " as a component registry entry"
  | host text => text
  | _ => ""

end Failure

namespace Value

/-- The shown text, if all its numbers can be written. -/
def show? (v : Value) : Except Failure String :=
  if v.isShowable then .ok v.shown else .error .tooManyDigits

end Value
end ViewDoc
