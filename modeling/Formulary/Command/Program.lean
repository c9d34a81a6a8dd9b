import Formulary.Command.Build
import Formulary.Command.Session
import Formulary.Settings.Inspection

/-!
# The program

The program carries out one command line in a world.  It ends with an exit code and
some output, or with the reason why it failed.

Main definitions:

- `Outcome`: how the program ends.
- `Program.run`: what a command line does.
-/

namespace Formulary

variable {m : Type → Type} [Monad m]

/-- How the program ends. -/
structure Outcome where
  exitCode : Nat
  output : String
  /-- Why a command failed. -/
  failure : Option SessionError

/-- The outcome of a command: exit code 1 if it fails. -/
def Outcome.ofResult : Except SessionError String → Outcome
  | .ok output => ⟨0, output, none⟩
  | .error e => ⟨1, "", some e⟩

/-- The outcome of a command line that does not run a command. -/
def Outcome.ofUsage (e : UsageError) : Outcome :=
  let output := match e with
    | .version command => BuildInfo.current.commandText command
    | _ => ""
  ⟨e.exitCode, output, none⟩

/-- A world that takes reports up to a threshold only. -/
def World.reportingUpTo (w : World m) (threshold : LogLevel) : World m :=
  { w with report := fun r => if r.level.shownAt threshold then w.report r else pure () }

namespace Settings

/-- How much is reported under some settings. -/
def threshold (s : Settings) : LogLevel :=
  .ofVerbosity s.verbosity.toNat

/-- The report of the settings that are used. -/
def record (s : Settings) : LogRecord :=
  ⟨.debug, .program, "Effective configuration: " ++ s.inspect⟩

end Settings

namespace Program

/-- A line of output. -/
def line (s : String) : String :=
  s ++ "\n"

/-- Carries out a command under some settings. -/
def perform (w : World m) (settings : Settings) : Command → m (Except SessionError String)
  | .test expression tree => do
      match ← Session.start w settings with
      | .error e => return .error e
      | .ok session => return (← session.test w expression tree).map line
  | .eval expression contexts sets json => do
      match ← Session.start w settings with
      | .error e => return .error e
      | .ok session =>
          let (result, _) ← session.eval w expression contexts sets json
          return result.map line
  | .showSettings =>
      match settings.write? with
      | none => return .error .oversizedSettings
      | some text => return .ok text
  | .initSettings path force => do
      let written ← Settings.init w path force
      return written.map fun _ => line ("Wrote default configuration to " ++ path)

/-- Whether an argument asks for the build. -/
def asksForBuild (argument : String) : Bool :=
  argument == "--version" || argument == "-V"

/-- Carries out an invocation. -/
def invoke (w : World m) (i : Invocation) : m (Except SessionError String) := do
  match ← Settings.prepare w i.settingsPath i.verbosity with
  | .error e => return .error e
  | .ok settings =>
      let w := w.reportingUpTo settings.threshold
      w.report settings.record
      perform w settings i.command

/-- Carries out a command line. -/
def run (w : World m) (arguments : List String) : m Outcome := do
  if arguments.any asksForBuild then return ⟨0, BuildInfo.current.text, none⟩
  match Invocation.parse arguments with
  | .error e => return .ofUsage e
  | .ok i => return .ofResult (← invoke w i)

end Program
end Formulary
