/-!
# Builds

What a build of the program says about itself.

Main definitions:

- `BuildInfo.text`: the lines of a build.
-/

namespace Formulary

/-- What is known about a build. -/
structure BuildInfo where
  version : String
  /-- The short hash of the commit that was built. -/
  revision : Option String := none
  date : Option String := none
  /-- The version of the compiler. -/
  compiler : Option String := none
  deriving DecidableEq

namespace BuildInfo

/-- The build of this program. -/
def current : BuildInfo :=
  { version := "0.2.0" }

/-- The details that are known, each with its label. -/
def details (b : BuildInfo) : List (String × String) :=
  [("Git hash", b.revision), ("Built", b.date), ("Rust", b.compiler)].filterMap
    fun (label, value) => value.map fun v => (label, v)

/-- The program with its version in the first line, and a line for each detail that is
known. -/
def text (b : BuildInfo) : String :=
  b.details.foldl (fun s (label, value) => s ++ label ++ ": " ++ value ++ "\n")
    ("parseo " ++ b.version ++ "\n")

/-- What a command says about its version. -/
def commandText (b : BuildInfo) (command : String) : String :=
  command ++ " " ++ b.version ++ "\n"

end BuildInfo
end Formulary
