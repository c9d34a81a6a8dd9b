import Formulary.Log
import Formulary.Settings.Document
import Formulary.Text.Lowercase
import Formulary.Value.Document

/-!
# The world of a session

A session reads and writes files, looks at its environment and reports what it does.
It does so through a record of operations, so that the same session runs on a real
disk and on a described one.

Main definitions:

- `World`: the operations.
- `SessionError`: why a session fails.
- `extensionOf`: the extension of a path.
-/

namespace Formulary

/-- What a session can do outside itself. -/
structure World (m : Type → Type) where
  /-- The content of a file; none if it cannot be read. -/
  read : String → m (Option String)
  /-- Whether there is a file or directory. -/
  isThere : String → m Bool
  /-- Replaces the content of a file; false if it cannot be written. -/
  write : String → String → m Bool
  /-- The current directory. -/
  directory : m String
  /-- A variable of the environment. -/
  environment? : String → m (Option String)
  /-- Takes a report. -/
  report : LogRecord → m Unit

/-- Takes reports, one after the other. -/
def World.reportAll {m : Type → Type} [Monad m] (w : World m) (records : List LogRecord) : m Unit :=
  records.forM w.report

/-- Why a text is no document of settings. -/
inductive SettingsError where
  /-- It is no TOML document. -/
  | syntaxFault
  /-- A value in it has the wrong type. -/
  | wrongType
  deriving DecidableEq

/-- The cause in words. -/
def SettingsError.message : SettingsError → String
  | .syntaxFault => "not a TOML document"
  | .wrongType => "a value has the wrong type"

/-- Why a session fails. -/
inductive SessionError where
  | unreadableSettings (path : String)
  | malformedSettings (path : String) (cause : SettingsError)
  | unusableSettings (cause : SettingsFault)
  | unwritableSettings (path : String)
  /-- A number in the settings does not fit into their document. -/
  | oversizedSettings
  | occupiedPath (path : String)
  | noFileAssignment (arg : String)
  | noDocumentAssignment (arg : String)
  | malformedContext (key : String)
  | unopenedTable (path : String)
  | malformedTable (path : String)
  | unreadableDocument (path : String)
  | malformedDocument (path : String)
  | unknownFormat (extension path : String)
  | formula (cause : FormulaError)
  | value (cause : ValueError)

/-- The failure in words. -/
def SessionError.message : SessionError → String
  | .unreadableSettings path => "Failed to read config file " ++ path
  | .malformedSettings path cause => "Invalid TOML config " ++ path ++ ": " ++ cause.message
  | .unusableSettings cause => cause.message
  | .unwritableSettings path => "Failed to write config file " ++ path
  | .oversizedSettings => "Failed to serialize config: out-of-range value for u64 type"
  | .occupiedPath path => path ++ " already exists, use --force to overwrite"
  | .noFileAssignment arg => "Expected KEY=FILE, got '" ++ arg ++ "'"
  | .noDocumentAssignment arg => "Expected KEY=JSON, got '" ++ arg ++ "'"
  | .malformedContext key => "Invalid JSON for context '" ++ key ++ "'"
  | .unopenedTable path => "Failed to open " ++ path
  | .malformedTable path => "Failed to read CSV " ++ path
  | .unreadableDocument path => "Failed to read " ++ path
  | .malformedDocument path => "Invalid JSON in " ++ path
  | .unknownFormat extension path =>
      "Unsupported context file format '" ++ extension ++ "' for " ++ path
  | .formula cause => cause.message
  | .value cause => cause.message

/-! ## Paths -/

/-- A path inside a directory. -/
def joinPath (directory path : String) : String :=
  if directory.isEmpty || directory.toList.getLast? == some '/' then directory ++ path
  else directory ++ "/" ++ path

/-- The parts of a path between its slashes, those that say nothing left out. -/
def pathParts (path : String) : List String :=
  ((path.splitOn "/").filter fun part => !part.isEmpty && part != ".")

/-- The extension of the last part of a path, in lower case: what follows its last
point, unless the part begins with that point. -/
def extensionOf (path : String) : String :=
  match (pathParts path).getLast? with
  | none => ""
  | some ".." => ""
  | some name =>
    let behind := name.toList.reverse.takeWhile (· != '.')
    if behind.length + 1 < name.length then
      Text.lowercase (String.ofList behind.reverse)
    else ""

end Formulary
