/-!
# Log records

The library reports what it does in records.  Whoever runs it chooses the level up
to which they are shown.

Main definitions:

- `LogRecord`, with its `LogLevel` and the component it comes from.
-/

namespace Formulary

/-- How much a record matters, the most important first. -/
inductive LogLevel where
  | error | warn | info | debug | trace
  deriving DecidableEq, Inhabited

namespace LogLevel

/-- The place of a level in the order of importance. -/
def rank : LogLevel → Nat
  | error => 1
  | warn => 2
  | info => 3
  | debug => 4
  | trace => 5

/-- Whether records of this level are shown up to a threshold. -/
def shownAt (level threshold : LogLevel) : Bool :=
  decide (level.rank ≤ threshold.rank)

/-- The level as records show it. -/
def label : LogLevel → String
  | error => "ERROR"
  | warn => "WARN"
  | info => "INFO"
  | debug => "DEBUG"
  | trace => "TRACE"

/-- The threshold that a number of requests for more detail asks for. -/
def ofVerbosity : Nat → LogLevel
  | 0 => warn
  | 1 => info
  | 2 => debug
  | _ => trace

end LogLevel

/-- The component that a record comes from. -/
inductive LogSource where
  | functions | variables | rewriting | engine | evaluation | cache | session | program
  deriving DecidableEq, Inhabited

/-- One report. -/
structure LogRecord where
  level : LogLevel
  source : LogSource
  message : String
  deriving DecidableEq, Inhabited

end Formulary
