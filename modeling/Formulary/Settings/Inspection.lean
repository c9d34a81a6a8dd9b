import Formulary.Compilation.Inspection
import Formulary.Settings.Basic

/-!
# Inspecting settings

The inspection text of settings names every part with its value, so that a report can
say what a session is made with.
-/

namespace Formulary

open Text

/-- The inspection text of a mode. -/
def BindMode.inspect : BindMode → String
  | .index => "Index"
  | .key => "Key"

/-- The inspection text of a variable. -/
def VariableSetting.inspect : VariableSetting → String
  | .pattern name source contextKey mode =>
      inspectFields "Pattern"
        [("name", diagnostic name), ("pattern", diagnostic source),
          ("context", diagnostic contextKey), ("bind", mode.inspect)]
  | .attributes name contextKey =>
      inspectFields "Attribute" [("name", diagnostic name), ("context", diagnostic contextKey)]

/-- The inspection text of how tables are read. -/
def CsvSettings.inspect (s : CsvSettings) : String :=
  inspectFields "CsvConfig"
    [("separator", diagnostic s.separator), ("has_header", inspectBool s.hasHeader)]

/-- The inspection text of settings. -/
def Settings.inspect (s : Settings) : String :=
  inspectFields "Config"
    [("engine", s.engine.inspect),
      ("functions", inspectFields "FunctionsConfig"
        [("standard", inspectItems (s.functions.map diagnostic))]),
      ("cache", inspectFields "CacheConfig" [("size", integerText s.cacheSize)]),
      ("csv", s.csv.inspect),
      ("debug", inspectFields "DebugConfig" [("verbosity", integerText s.verbosity.toNat)]),
      ("variables", inspectItems (s.variableSettings.map VariableSetting.inspect))]

end Formulary
