import StaticSite.Command.Line

/-!
# What a command line asks for

There are three commands: one starts a new site, one builds a site, and one serves it while it is
worked on. Three options can be given before any of them.
-/

namespace StaticSite.Command

/-- What can be chosen for a build. -/
structure BuildFlags where
  /-- whether the output directory is emptied first -/
  clean? : Option Bool := none
  /-- whether documents are made smaller -/
  minify? : Option Bool := none
  deriving DecidableEq, Repr, Inhabited

/-- What is to be done. -/
inductive Action where
  /-- a new site is started, in a directory of its own if there is a name -/
  | init (name? : Option Path)
  /-- the site is built -/
  | generate (flags : BuildFlags)
  /-- the site is served -/
  | dev (flags : BuildFlags) (interface? : Option String) (port? reloadPort? : Option Nat)
    (watch? : Option Bool)
  deriving DecidableEq, Repr

/-- The name of the settings file, if no other is given. -/
def settingsName : Path := ⟨"vela.toml"⟩

/-- What a command line asks for. -/
structure Invocation where
  /-- the directory of the project -/
  root? : Option Path := none
  /-- the output directory -/
  output? : Option Path := none
  /-- the settings file -/
  config : Path := settingsName
  /-- what is to be done -/
  action : Action
  deriving DecidableEq, Repr

/-! ## Grammars -/

/-- The options of a build. -/
def buildOptions : List Slot :=
  [⟨"clean", none, .truth⟩, ⟨"minify", some 'm', .truth⟩]

/-- What can stand behind a command. -/
def grammarOf (command : String) : Grammar :=
  if command = "init" then { operand? := some ⟨"name", none, .path⟩ }
  else if command = "dev" then
    { options := buildOptions ++
        [⟨"interface", some 'i', .text⟩, ⟨"port", some 'p', .port⟩,
          ⟨"reload-port", none, .port⟩, ⟨"watch", some 'w', .truth⟩] }
  else { options := buildOptions }

/-- What can stand before a command. -/
def outerGrammar : Grammar where
  options := [⟨"root", some 'r', .path⟩, ⟨"output", some 'o', .path⟩, ⟨"config", some 'C', .path⟩]
  commands := ["init", "generate", "dev", "help"]
  hasVersion := true

/-! ## Reading -/

namespace Progress

/-- The path that was given for a slot. -/
def path? (p : Progress) (name : String) : Option Path :=
  match p.given.lookup name with
  | some (.path v) => some v
  | _ => none

/-- The text that was given for a slot. -/
def text? (p : Progress) (name : String) : Option String :=
  match p.given.lookup name with
  | some (.text v) => some v
  | _ => none

/-- The port that was given for a slot. -/
def port? (p : Progress) (name : String) : Option Nat :=
  match p.given.lookup name with
  | some (.port v) => some v
  | _ => none

/-- The truth value that was given for a slot. -/
def truth? (p : Progress) (name : String) : Option Bool :=
  match p.given.lookup name with
  | some (.truth v) => some v
  | _ => none

/-- What was chosen for a build. -/
def flags (p : Progress) : BuildFlags := ⟨p.truth? "clean", p.truth? "minify"⟩

end Progress

/-- What a command does with what was given to it. -/
def actionOf (command : String) (p : Progress) : Action :=
  if command = "init" then .init (p.path? "name")
  else if command = "dev" then
    .dev p.flags (p.text? "interface") (p.port? "port") (p.port? "reload-port") (p.truth? "watch")
  else .generate p.flags

/-- The answer to a question for help, which may name a command. -/
def helpFor : List String → UsageError
  | [] => .help
  | [command] => if outerGrammar.commands.contains command then .help else .unknownCommand
  | _ => .unknownCommand

/-- What a command line asks for. -/
def Invocation.parse (words : List String) : Except UsageError Invocation := do
  match ← outerGrammar.read {} words with
  | .finished p =>
    let p ← p.settle
    throw (if p.given.isEmpty then .nothing else .noCommand)
  | .command command rest p =>
    if command = "help" then throw (helpFor rest)
    let inner ← (grammarOf command).readAll rest
    let p ← p.settle
    return {
      root? := p.path? "root", output? := p.path? "output",
      config := (p.path? "config").getD settingsName, action := actionOf command inner }

end StaticSite.Command
