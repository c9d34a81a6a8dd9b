import Formulary.Command.Usage
import Formulary.Command.World
import Formulary.Document.Writer
import Formulary.Expr.Document
import Formulary.Value.Text

/-!
# Sessions

A session has settings, the engine that they make, and a cache of evaluators.  It
shows how formulas are compiled, and evaluates them in a context that it reads from
files and documents.

Main definitions:

- `Settings.load` and `Settings.init`: the settings file.
- `Session.start`, `Session.test` and `Session.eval`.
-/

namespace Formulary

variable {m : Type → Type} [Monad m]

/-! ## Settings files -/

namespace Settings

/-- The names of settings files, the preferred one first. -/
def fileNames : List String :=
  ["parseo.toml", ".parseo.toml"]

/-- The first path where there is something. -/
def firstThere (w : World m) : List String → m (Option String)
  | [] => return none
  | path :: rest => do
      if ← w.isThere path then return some path
      firstThere w rest

/-- The settings file of the current directory, or else that of the user. -/
def find (w : World m) : m (Option String) := do
  let here ← w.directory
  match ← firstThere w (fileNames.map (joinPath here)) with
  | some path => return some path
  | none =>
    match ← w.environment? "HOME" with
    | none => return none
    | some home =>
        let directory := joinPath (joinPath home ".config") "parseo"
        firstThere w (fileNames.map (joinPath directory))

/-- The settings of a text, or why there are none. -/
def ofText (source : String) : Except SettingsError Settings :=
  match Toml.read? source with
  | none => .error .syntaxFault
  | some document =>
    match ofToml? document with
    | none => .error .wrongType
    | some settings => .ok settings

/-- The settings of a file. -/
def ofFile (w : World m) (path : String) : m (Except SessionError Settings) := do
  match ← w.read path with
  | none => return .error (.unreadableSettings path)
  | some content => return (ofText content).mapError (SessionError.malformedSettings path)

/-- The settings with the overrides of the environment. -/
def withEnvironment (w : World m) (s : Settings) : List String → m Settings
  | [] => return s
  | name :: rest => do
      match ← w.environment? name with
      | some value => withEnvironment w (s.override name value) rest
      | none => withEnvironment w s rest

/-- The settings of a file, of the one that is found if none is named, or else the
default ones, with the overrides of the environment. -/
def load (w : World m) (path : Option String) : m (Except SessionError Settings) := do
  let path ← match path with
    | some path => pure (some path)
    | none => find w
  let loaded ← match path with
    | some path => ofFile w path
    | none => pure (.ok {})
  match loaded with
  | .error e => return .error e
  | .ok settings => return .ok (← withEnvironment w settings overrideNames)

/-- Writes settings into a file. -/
def save (w : World m) (s : Settings) (path : String) : m (Except SessionError Unit) := do
  match s.write? with
  | none => return .error .oversizedSettings
  | some content =>
      if ← w.write path content then return .ok ()
      return .error (.unwritableSettings path)

/-- Writes the default settings into a file, which must not be there unless forced. -/
def init (w : World m) (path : String) (force : Bool) : m (Except SessionError Unit) := do
  let occupied ← w.isThere path
  if occupied && !force then return .error (.occupiedPath path)
  save w {} path

/-- Loads settings and checks that they can be used. -/
def prepare (w : World m) (path : Option String) (verbosity : UInt8) :
    m (Except SessionError Settings) := do
  match ← load w path with
  | .error e => return .error e
  | .ok settings =>
      let settings := settings.withVerbosity verbosity
      match settings.validate with
      | .error e => return .error (.unusableSettings e)
      | .ok () => return .ok settings

end Settings

/-! ## Sessions -/

/-- A running session. -/
structure Session where
  settings : Settings
  cache : EvaluatorCache

namespace Session

/-- A session with some settings. -/
def start (w : World m) (settings : Settings) : m (Except SessionError Session) := do
  w.reportAll settings.engineRecords
  match settings.makeEngine with
  | .error e => return .error (.formula e)
  | .ok engine => return .ok ⟨settings, EvaluatorCache.ofEngine engine settings.cacheSize⟩

/-- The engine of a session. -/
def engine (s : Session) : Engine :=
  s.cache.engine

/-- The canonical text of a compiled formula, or its tree as a document. -/
def test (w : World m) (s : Session) (expression : String) (tree : Bool) :
    m (Except SessionError String) := do
  w.reportAll (s.engine.compileRecords expression)
  match s.engine.compileFormula expression with
  | .error e => return .error (.formula e)
  | .ok compiled => return .ok (if tree then compiled.expr.document.pretty else compiled.canonical)

/-! ## Contexts -/

/-- Reads a table as a frame. -/
def readTable (w : World m) (s : Session) (path : String) : m (Except SessionError Value) := do
  if ← w.isThere path then
    let content ← w.read path
    match s.settings.csvFormat?, content with
    | none, _ => return .error (.unusableSettings .separator)
    | some _, none => return .error (.malformedTable path)
    | some format, some content =>
      match format.read? content with
      | none => return .error (.malformedTable path)
      | some columns =>
          w.report ⟨.debug, .session,
            "Read " ++ Text.integerText (frameHeight columns) ++ " rows from " ++ path⟩
          return .ok (.frame columns)
  else return .error (.unopenedTable path)

/-- Reads a document as a value. -/
def readDocument (w : World m) (path : String) : m (Except SessionError Value) := do
  match ← w.read path with
  | none => return .error (.unreadableDocument path)
  | some content =>
    match Document.read? content with
    | none => return .error (.malformedDocument path)
    | some document => return .ok (.ofDocument document)

/-- Reads a file by its extension. -/
def valueOfFile (w : World m) (s : Session) (path : String) : m (Except SessionError Value) :=
  match extensionOf path with
  | "csv" => readTable w s path
  | "json" => readDocument w path
  | other => return .error (.unknownFormat other path)

/-- Adds the values of files to a context. -/
def addFiles (w : World m) (s : Session) (context : Context) :
    List String → m (Except SessionError Context)
  | [] => return .ok context
  | arg :: rest => do
    match splitAssignment? arg with
    | none => return .error (.noFileAssignment arg)
    | some (key, path) =>
      match ← valueOfFile w s path with
      | .error e => return .error e
      | .ok value =>
          w.report ⟨.info, .session, "Loaded context '" ++ key ++ "' from " ++ path⟩
          addFiles w s (context.put key value) rest

/-- Adds the values of documents to a context. -/
def addDocuments (context : Context) : List String → Except SessionError Context
  | [] => .ok context
  | arg :: rest =>
    match splitAssignment? arg with
    | none => .error (.noDocumentAssignment arg)
    | some (key, source) =>
      match Document.read? source with
      | none => .error (.malformedContext key)
      | some document => addDocuments (context.put key (.ofDocument document)) rest

/-- The context of some files and documents. -/
def context (w : World m) (s : Session) (files documents : List String) :
    m (Except SessionError Context) := do
  match ← addFiles w s Table.empty files with
  | .error e => return .error e
  | .ok context => return addDocuments context documents

/-! ## Evaluation -/

/-- A value as text, or as a document. -/
def render (v : Value) (json : Bool) : Except SessionError String :=
  if json then
    match v.document with
    | .ok document => .ok document.pretty
    | .error e => .error (.value e)
  else .ok v.shown

/-- The value of a formula in a context, and the session after it. -/
def evaluate (w : World m) (s : Session) (expression : String) (context : Context) :
    m (Except SessionError Value × Session) := do
  w.reportAll (s.cache.records expression)
  let (looked, cache) := s.cache.lookup expression
  let after : Session := { s with cache := cache }
  match looked with
  | .error e => return (.error (.formula e), after)
  | .ok evaluator =>
      w.reportAll (evaluator.records context)
      return ((evaluator.call context).mapError .formula, after)

/-- The value of a formula in a context of files and documents, as text, and the
session after it. -/
def eval (w : World m) (s : Session) (expression : String) (files documents : List String)
    (json : Bool) : m (Except SessionError String × Session) := do
  match ← s.context w files documents with
  | .error e => return (.error e, s)
  | .ok context =>
    match ← s.evaluate w expression context with
    | (.error e, after) => return (.error e, after)
    | (.ok v, after) => return (render v json, after)

end Session
end Formulary
