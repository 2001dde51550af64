import ViewDoc.Failure
import ViewDoc.Text.Case

/-!
Settings of an engine, and log levels.
-/

namespace ViewDoc

/-- Settings can hold any value; the first two are switched on by what counts as true. -/
structure Config where
  twentyFour : Value
  stylesByRoot : Value
  logLevel : Value

namespace Config

def standard : Config := ⟨.bool false, .bool false, .text "WARNING"⟩

/-- Reads settings from a manifest: two switches, and the level put in capitals. -/
def ofEntries (table : Entries) : Except Failure Config :=
  let level := (table.get? "log_level").getD standard.logLevel
  if level.isQuotable then
    .ok {
      twentyFour := .bool (table.get "use_24h_clock").truthy
      stylesByRoot := .bool (table.get "root_style_lookup").truthy
      logLevel := .text (String.ofList (Text.upper level.plain.toList)) }
  else .error .tooManyDigits

def fieldNames : List String := ["use_24h_clock", "root_style_lookup", "log_level"]

/-- Takes settings as they are given; there are no others. -/
def ofFields (table : Entries) : Except Failure Config :=
  if table.all fun e => e.1.text?.any fieldNames.contains then
    .ok {
      twentyFour := (table.get? "use_24h_clock").getD standard.twentyFour
      stylesByRoot := (table.get? "root_style_lookup").getD standard.stylesByRoot
      logLevel := (table.get? "log_level").getD standard.logLevel }
  else .error .unknownField

def text (c : Config) : String :=
  "RendererConfig(use_24h_clock=" ++ c.twentyFour.quoted ++
    ", root_style_lookup=" ++ c.stylesByRoot.quoted ++ ", log_level=" ++ c.logLevel.quoted ++ ")"

end Config

namespace LogLevel

def names : List (String × Int) :=
  [("CRITICAL", 50), ("FATAL", 50), ("ERROR", 40), ("WARN", 30), ("WARNING", 30), ("INFO", 20),
    ("DEBUG", 10), ("NOTSET", 0)]

def ofName (name : String) : Except Failure Int :=
  match names.find? (·.1 = name) with
  | some (_, level) => .ok level
  | none => .error .unknownLogLevel

/-- A level is given by name, or as a number, which is kept as it is. -/
def ofValue : Value → Except Failure Value
  | .text s => (ofName s).map .int
  | .int n => .ok (.int n)
  | .bool b => .ok (.bool b)
  | _ => .error .badLogLevel

/-- The level from which on records are kept: where none is set, that of warnings. -/
def threshold (level : Value) : Int :=
  let n := level.whole?.getD 0
  if n = 0 then 30 else n

end LogLevel
end ViewDoc
