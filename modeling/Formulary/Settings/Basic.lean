import Formulary.Compilation.Cache
import Formulary.Csv.Frame

/-!
# Settings

What a session is made with: the variables and standard functions that formulas may
use, how they are compiled and kept, how tables are read, and how much is reported.

Main definitions:

- `Settings`, with its defaults, `Settings.validate` and `Settings.engine`.
-/

namespace Formulary

/-- A variable that formulas may use. -/
inductive VariableSetting where
  /-- Identifiers that match a pattern. -/
  | pattern (name source contextKey : String) (mode : BindMode)
  /-- Attributes of a base. -/
  | attributes (name contextKey : String)
  deriving DecidableEq

/-- How tables are read. -/
structure CsvSettings where
  separator : String := ","
  hasHeader : Bool := true
  deriving DecidableEq

/-- What a session is made with. -/
structure Settings where
  engine : EngineOptions := {}
  /-- Names of standard functions; an asterisk stands for all of them. -/
  functions : List String := []
  cacheSize : Nat := defaultCacheSize
  csv : CsvSettings := {}
  /-- How much is reported. -/
  verbosity : UInt8 := 0
  variableSettings : List VariableSetting :=
    [.pattern "M*" "M(\\d+)" "source" .index, .pattern "C*" "C(\\d+)" "config" .index,
      .attributes "config" "config_map"]
  deriving DecidableEq

/-- Why settings cannot be used. -/
inductive SettingsFault where
  | noDepth | noCache | separator
  deriving DecidableEq

/-- The cause in words. -/
def SettingsFault.message : SettingsFault → String
  | .noDepth => "Max depth must be greater than 0"
  | .noCache => "Cache size must be greater than 0"
  | .separator => "CSV separator must be a single character"

/-- The separator of tables: a text of one byte. -/
def CsvSettings.separator? (s : CsvSettings) : Option Char :=
  match s.separator.toList with
  | [c] => if c.toNat < 128 then some c else none
  | _ => none

namespace VariableSetting

/-- The resolver of a variable. -/
def resolver : VariableSetting → Except FormulaError Resolver
  | pattern name source contextKey mode =>
      (PatternVariable.make name source contextKey mode).map fun v => .simple v.resolver
  | attributes name contextKey => .ok (.attributed (AttributeVariable.mk name contextKey).resolver)

end VariableSetting

namespace Settings

/-- Checks that the settings can be used. -/
def validate (s : Settings) : Except SettingsFault Unit :=
  if s.engine.maxDepth = 0 then .error .noDepth
  else if s.cacheSize = 0 then .error .noCache
  else if s.csv.separator?.isNone then .error .separator
  else .ok ()

/-- How tables are read; none if the separator cannot be used. -/
def csvFormat? (s : Settings) : Option CsvFormat :=
  s.csv.separator?.map fun separator => ⟨separator, s.csv.hasHeader⟩

/-- The resolvers of the variables, in order. -/
def resolvers (s : Settings) : Except FormulaError (List Resolver) :=
  s.variableSettings.mapM VariableSetting.resolver

/-- The registrations of the standard functions, in order. -/
def registrations (s : Settings) : List Registration :=
  s.functions.map fun name => if name = "*" then .library else .standard name

/-- The engine of the settings. -/
def makeEngine (s : Settings) : Except FormulaError Engine :=
  match s.resolvers with
  | .ok resolvers => Engine.build s.engine resolvers s.registrations
  | .error e => .error e

/-- What there is to report when the engine is made. -/
def engineRecords (s : Settings) : List LogRecord :=
  match s.resolvers with
  | .ok resolvers => Engine.buildRecords resolvers s.registrations
  | .error _ => []

/-! ## Overrides -/

/-- Natural numbers in settings are below this bound. -/
def naturalBound : Nat := UInt64.size

/-- The setting of a variable of the environment.  A value that cannot be read stands
for the default. -/
def override (s : Settings) (name value : String) : Settings :=
  match name with
  | "PARSEO_VERBOSITY" =>
      { s with verbosity := UInt8.ofNat ((Text.readNatural 256 value.toList).getD 0) }
  | "PARSEO_CACHE_SIZE" =>
      { s with cacheSize := (Text.readNatural naturalBound value.toList).getD defaultCacheSize }
  | "PARSEO_MAX_DEPTH" =>
      let depth := (Text.readNatural naturalBound value.toList).getD defaultMaxDepth
      { s with engine := { s.engine with maxDepth := depth } }
  | _ => s

/-- The variables of the environment that override settings. -/
def overrideNames : List String :=
  ["PARSEO_VERBOSITY", "PARSEO_CACHE_SIZE", "PARSEO_MAX_DEPTH"]

/-- The settings with a verbosity that was asked for; zero asks for nothing. -/
def withVerbosity (s : Settings) (verbosity : UInt8) : Settings :=
  if verbosity = 0 then s else { s with verbosity := verbosity }

end Settings
end Formulary
