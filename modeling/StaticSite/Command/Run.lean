import StaticSite.Command.Scaffold
import StaticSite.Site.Build

/-!
# Running a command

A command line is read, the settings for it are put together and checked, and then a site is started
or built. Serving is not done here, since it does not end.
-/

namespace StaticSite.Command

/-- Why a command did not do its work. -/
inductive Failure where
  /-- the command line is not understood -/
  | usage (cause : UsageError)
  /-- there are no settings for it -/
  | settings (cause : SettingsError)
  /-- the site cannot be started -/
  | scaffold (cause : ScaffoldError)
  /-- the site cannot be built -/
  | build (cause : BuildError)
  deriving DecidableEq, Repr

/-- What a command has done. -/
inductive Done where
  /-- a site was started -/
  | started (root : Path)
  /-- a site was built -/
  | built (pages : Path) (summary : BuildSummary)
  /-- a site is ready to be served -/
  | serving (settings : Settings)

/-- The settings for a command, checked. -/
def settingsFor (d : Disk) (i : Invocation) : Except SettingsError Settings := do
  let s ← Settings.load d i
  s.check d i
  return s

/-- Does what a command line asks for. -/
def run (d : Disk) (words : List String) : Disk × Except Failure Done :=
  match Invocation.parse words with
  | .error e => (d, .error (.usage e))
  | .ok i =>
    match settingsFor d i with
    | .error e => (d, .error (.settings e))
    | .ok s =>
      match i.action with
      | .init name? =>
        match Scaffold.run d s name?.isSome with
        | (d, .ok _) => (d, .ok (.started s.build.root))
        | (d, .error e) => (d, .error (.scaffold e))
      | .generate _ =>
        match Site.build d s.build none with
        | (d, .ok summary) => (d, .ok (.built s.build.pages summary))
        | (d, .error e) => (d, .error (.build e))
      | .dev _ _ _ _ _ => (d, .ok (.serving s))

end StaticSite.Command
