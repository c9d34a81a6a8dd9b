import Formulary.Text.Blank

/-!
# Command lines

A command line names a command with its options and arguments.  Options may stand
anywhere behind the command that has them; two options, for the settings file and
for more reports, belong to every command, and the one given at the innermost
command counts.

Main definitions:

- `Invocation.parse`: what a command line asks for, or why it asks for nothing.
-/

namespace Formulary

/-- What the program is asked to do. -/
inductive Command where
  /-- Show how a formula is compiled, as a tree if so wished. -/
  | test (expression : String) (tree : Bool)
  /-- Show the value of a formula in a context of files and documents. -/
  | eval (expression : String) (contexts sets : List String) (json : Bool)
  /-- Show the settings. -/
  | showSettings
  /-- Write the default settings into a file. -/
  | initSettings (path : String) (force : Bool)
  deriving DecidableEq

/-- What a command line asks for. -/
structure Invocation where
  settingsPath : Option String
  verbosity : UInt8
  command : Command
  deriving DecidableEq

/-- Why a command line does not run a command. -/
inductive UsageError where
  /-- It asks for help. -/
  | help
  /-- It asks for the version of a command. -/
  | version (command : String)
  /-- It cannot be understood. -/
  | malformed
  deriving DecidableEq

/-- The exit code of the program. -/
def UsageError.exitCode : UsageError → Nat
  | help => 0
  | version _ => 0
  | malformed => 2

/-- Splits an assignment at its first equals sign.  The key has no white space
around it and is not empty. -/
def splitAssignment? (arg : String) : Option (String × String) :=
  let s := arg.toList
  let key := s.takeWhile (· != '=')
  match s.drop key.length with
  | _ :: value =>
      let key := Text.trimmed (String.ofList key)
      if key.isEmpty then none else some (key, String.ofList value)
  | [] => none

namespace CommandLine

/-! ## Options -/

/-- What an option takes, and whether it may be repeated. -/
inductive OptionKind where
  /-- Nothing, once. -/
  | flag
  /-- Nothing; the occurrences are counted. -/
  | counter
  /-- A value, once; it may have to be other than the empty text. -/
  | value (allowsEmpty : Bool)
  /-- A value, any number of times. -/
  | values
  /-- Nothing; it takes the place of the command. -/
  | request (answer : String → UsageError)

/-- An option with its names. -/
structure OptionSpec where
  long : String
  short : Option Char
  kind : OptionKind

/-- The options of every command. -/
def sharedOptions : List OptionSpec :=
  [⟨"config", none, .value false⟩, ⟨"verbose", some 'v', .counter⟩,
    ⟨"help", some 'h', .request fun _ => .help⟩, ⟨"version", some 'V', .request .version⟩]

/-- What may follow the name of a command. -/
structure Level where
  /-- The name of the command with those of the commands around it. -/
  name : String
  options : List OptionSpec
  /-- Whether another command follows; there are no arguments then. -/
  hasCommands : Bool
  /-- The number of arguments taken. -/
  arguments : Nat
  allowsEmpty : Bool

/-- What has been given at a level. -/
structure Given where
  /-- Long names of options with their values, in order. -/
  options : List (String × String)
  arguments : List String
  /-- The next command with all that follows it. -/
  rest : List String

namespace Given

/-- Nothing. -/
def nothing : Given :=
  ⟨[], [], []⟩

/-- The values of an option. -/
def values (g : Given) (long : String) : List String :=
  (g.options.filter fun o => o.1 == long).map Prod.snd

/-- Whether an option is given. -/
def has (g : Given) (long : String) : Bool :=
  g.options.any fun o => o.1 == long

/-- Adds an option. -/
def addOption (g : Given) (o : OptionSpec) (value : String) : Except UsageError Given :=
  let added := { g with options := g.options ++ [(o.long, value)] }
  match o.kind with
  | .flag => if g.has o.long then .error .malformed else .ok added
  | .value allowsEmpty =>
      if g.has o.long || (!allowsEmpty && value.isEmpty) then .error .malformed else .ok added
  | _ => .ok added

/-- Adds an argument. -/
def addArgument (level : Level) (g : Given) (argument : String) : Except UsageError Given :=
  if g.arguments.length < level.arguments && (level.allowsEmpty || !argument.isEmpty) then
    .ok { g with arguments := g.arguments ++ [argument] }
  else .error .malformed

end Given

/-! ## Tokens -/

/-- A token of a command line. -/
inductive Token where
  | long (name : String) (value : Option String)
  | short (letters : List Char)
  | plain

/-- A long option with the value behind its equals sign, if it has one. -/
def longToken (s : List Char) : Token :=
  let name := s.takeWhile (· != '=')
  match s.drop name.length with
  | _ :: value => .long (String.ofList name) (some (String.ofList value))
  | [] => .long (String.ofList name) none

/-- The kind of a token; a lone dash is plain. -/
def tokenOf (s : List Char) : Token :=
  match s with
  | '-' :: '-' :: name => longToken name
  | '-' :: c :: letters => .short (c :: letters)
  | _ => .plain

/-- Whether a token can be the value of the option before it. -/
def isValue (token : String) : Bool :=
  match tokenOf token.toList with
  | .plain => true
  | _ => false

/-- Reads letters of options in one token.  An option that lacks its value is
returned. -/
def readLetters (level : Level) (g : Given) :
    List Char → Except UsageError (Given × Option OptionSpec)
  | [] => .ok (g, none)
  | c :: rest =>
    match level.options.find? fun o => o.short == some c with
    | none => .error .malformed
    | some o =>
      match o.kind with
      | .request answer => .error (answer level.name)
      | .flag => do readLetters level (← g.addOption o "") rest
      | .counter => do readLetters level (← g.addOption o "") rest
      | _ =>
        match rest with
        | [] => .ok (g, some o)
        | '=' :: value => do return (← g.addOption o (String.ofList value), none)
        | value => do return (← g.addOption o (String.ofList value), none)

/-- Reads a long option.  An option that lacks its value is returned. -/
def readLong (level : Level) (g : Given) (name : String) (value : Option String) :
    Except UsageError (Given × Option OptionSpec) :=
  match level.options.find? fun o => o.long == name with
  | none => .error .malformed
  | some o =>
    match o.kind, value with
    | .request answer, none => .error (answer level.name)
    | .flag, none => do return (← g.addOption o "", none)
    | .counter, none => do return (← g.addOption o "", none)
    | .value _, some value => do return (← g.addOption o value, none)
    | .values, some value => do return (← g.addOption o value, none)
    | .value _, none => .ok (g, some o)
    | .values, none => .ok (g, some o)
    | _, some _ => .error .malformed

/-- Reads the tokens of a level up to the next command.  Behind a double dash there
are arguments only. -/
def readLevel (level : Level) (g : Given) : List String → Except UsageError Given
  | [] => .ok g
  | "--" :: rest => rest.foldlM (Given.addArgument level) g
  | token :: rest =>
    let read := match tokenOf token.toList with
      | .long name value => some (readLong level g name value)
      | .short letters => some (readLetters level g letters)
      | .plain => none
    match read with
    | none =>
        if level.hasCommands then .ok { g with rest := token :: rest }
        else
          match g.addArgument level token with
          | .error e => .error e
          | .ok g => readLevel level g rest
    | some (.error e) => .error e
    | some (.ok (g, none)) => readLevel level g rest
    | some (.ok (g, some o)) =>
      match rest with
      | value :: rest =>
          if isValue value then
            match g.addOption o value with
            | .error e => .error e
            | .ok g => readLevel level g rest
          else .error .malformed
      | [] => .error .malformed

/-! ## Commands -/

/-- A command with other commands inside. -/
def outerLevel (name : String) : Level :=
  ⟨name, sharedOptions, true, 0, true⟩

/-- What may follow `test`. -/
def testLevel : Level :=
  ⟨"parseo-test", sharedOptions ++ [⟨"ast", none, .flag⟩], false, 1, true⟩

/-- What may follow `eval`. -/
def evalLevel : Level :=
  ⟨"parseo-eval",
    sharedOptions ++
      [⟨"context", some 'c', .values⟩, ⟨"set", some 's', .values⟩, ⟨"json", none, .flag⟩],
    false, 1, true⟩

/-- What may follow `config show`. -/
def showLevel : Level :=
  ⟨"parseo-config-show", sharedOptions, false, 0, true⟩

/-- What may follow `config init`. -/
def initLevel : Level :=
  ⟨"parseo-config-init", sharedOptions ++ [⟨"force", none, .flag⟩], false, 1, false⟩

/-- Whether there is help on a command. -/
def isTopic : List String → Bool
  | [] => true
  | "help" :: rest => isTopic rest
  | ["test"] => true
  | ["eval"] => true
  | ["config"] => true
  | ["config", "show"] => true
  | ["config", "init"] => true
  | ["config", "help"] => true
  | _ => false

/-- The answer to a request for help on a command. -/
def helpOn (topic : List String) : UsageError :=
  if isTopic topic then .help else .malformed

/-- An option of all levels: the innermost level that has it counts. -/
def innermost {α : Type} (read : Given → Option α) (levels : List Given) : Option α :=
  levels.reverse.findSome? read

/-- The path of the settings file at a level. -/
def settingsPath? (g : Given) : Option String :=
  (g.values "config").head?

/-- The number of requests for more reports at a level, at most 255. -/
def verbosity? (g : Given) : Option UInt8 :=
  let count := (g.values "verbose").length
  if count = 0 then none else some (UInt8.ofNat (min count 255))

/-- An invocation from what was given at all levels. -/
def invocation (levels : List Given) (command : Command) : Invocation :=
  ⟨innermost settingsPath? levels, (innermost verbosity? levels).getD 0, command⟩

/-- Reads what follows a command that takes one argument. -/
def readFormula (level : Level) (rest : List String) : Except UsageError (String × Given) :=
  match readLevel level .nothing rest with
  | .error e => .error e
  | .ok g =>
    match g.arguments with
    | expression :: _ => .ok (expression, g)
    | [] => .error .malformed

/-- Reads what follows `config`. -/
def readConfig (outer : Given) (rest : List String) : Except UsageError Invocation :=
  match readLevel (outerLevel "parseo-config") .nothing rest with
  | .error e => .error e
  | .ok g =>
    match g.rest with
    | "show" :: rest =>
        (readLevel showLevel .nothing rest).map fun inner =>
          invocation [outer, g, inner] .showSettings
    | "init" :: rest =>
        (readLevel initLevel .nothing rest).map fun inner =>
          invocation [outer, g, inner]
            (.initSettings (inner.arguments.headD "parseo.toml") (inner.has "force"))
    | "help" :: topic => .error (helpOn ("config" :: topic))
    | _ => .error .malformed

end CommandLine

/-- What the arguments of the program ask for. -/
def Invocation.parse (arguments : List String) : Except UsageError Invocation :=
  match CommandLine.readLevel (CommandLine.outerLevel "parseo") .nothing arguments with
  | .error e => .error e
  | .ok outer =>
    match outer.rest with
    | "test" :: rest =>
        (CommandLine.readFormula CommandLine.testLevel rest).map fun (expression, g) =>
          CommandLine.invocation [outer, g] (.test expression (g.has "ast"))
    | "eval" :: rest =>
        (CommandLine.readFormula CommandLine.evalLevel rest).map fun (expression, g) =>
          CommandLine.invocation [outer, g]
            (.eval expression (g.values "context") (g.values "set") (g.has "json"))
    | "config" :: rest => CommandLine.readConfig outer rest
    | "help" :: topic => .error (CommandLine.helpOn topic)
    | _ => .error .malformed

end Formulary
