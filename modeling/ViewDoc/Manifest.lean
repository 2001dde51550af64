import ViewDoc.Config
import ViewDoc.Outcome
import ViewDoc.Toml

/-!
Manifests: settings and first contents of the registries, as a TOML document.
-/

namespace ViewDoc

structure Manifest where
  config : Config
  /-- The data that the roots of selectors name. -/
  roots : Entries
  styles : Entries

namespace Manifest

/-- A part of the manifest that has to be a table if it is there. -/
def part (data : Entries) (name : String) : Except Failure Entries :=
  match data.get? name with
  | none => .ok []
  | some (.map entries) => .ok entries
  | some _ => .error (.manifest (.notTable name))

def ofEntries (data : Entries) : Except Failure Manifest := do
  let config ← Config.ofEntries (← part data "renderer")
  let roots ← part data "variables"
  let styles ← part data "styles"
  return { config, roots, styles }

def readToml (text : String) : Except Failure Entries :=
  match Toml.read text.toList with
  | .ok entries => .ok entries
  | .error .invalid => .error (.manifest .invalid)
  | .error .tooManyDigits => .error .tooManyDigits

/-- Reads the bytes of a file, `none` if there is no file. -/
def read : Option ByteArray → Except Failure Manifest
  | none => .error (.manifest .missing)
  | some bytes =>
    match String.fromUTF8? bytes with
    | none => .error .notUnicode
    | some text => do ofEntries (← readToml text)

/-- Reads the manifest at a path and logs what it holds. -/
def load (path : String) (file : Option ByteArray) : Outcome Manifest := do
  let m ← read file
  Outcome.log .config .info
    ("Loaded renderer manifest " ++ path ++ " (" ++ Text.whole m.roots.length ++
      " variable namespaces, " ++ Text.whole m.styles.length ++ " style categories)")
  return m

/-- Loads only the settings of the manifest at a path. -/
def loadConfig (path : String) (file : Option ByteArray) : Outcome Config :=
  Manifest.config <$> load path file

end Manifest
end ViewDoc
