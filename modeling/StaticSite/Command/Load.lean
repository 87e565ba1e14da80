import StaticSite.Command.Invocation
import StaticSite.Site.SettingsText

/-!
# The settings for a command

The settings of a command come from the settings file of the project, if there is one, and from the
command line, which wins. `Settings.load` puts them together and makes all directories absolute;
`Settings.check` refuses settings with which the command cannot work.
-/

namespace StaticSite

open Command

/-- Why there are no settings for a command. -/
inductive SettingsError where
  /-- the settings file is no readable text -/
  | unreadable (file : Path)
  /-- the settings file is not one -/
  | malformed (file : Path)
  /-- a new site has a settings file already -/
  | alreadyThere
  /-- the pages are not in a directory -/
  | noPages (pages : Path)
  /-- the extension is not one -/
  | badExtension
  /-- a pattern for style sheets is no pattern -/
  | badPattern
  /-- documents and reload messages have one port -/
  | samePort
  deriving DecidableEq, Repr

namespace SettingsError

/-- The wording of an error. -/
def display : SettingsError → String
  | .unreadable file => "cannot read \x60" ++ file.text ++ "\x60"
  | .malformed file => "\x60" ++ file.text ++ "\x60 is not a valid site config"
  | .alreadyThere =>
    "Config file already exists. Remove it manually or init in a different path."
  | .noPages pages => "[build.pages] \x60" ++ pages.text ++ "\x60 is not a directory"
  | .badExtension => "[build.extension] must be a bare extension such as \"vue\""
  | .badPattern => "[build.styles] contains an invalid regex"
  | .samePort => "[serve.port] must differ from [serve.reload_port]"

end SettingsError

namespace Command.Invocation

/-- Whether a new site is to be started. -/
def isInit (i : Invocation) : Bool :=
  match i.action with
  | .init _ => true
  | _ => false

/-- Whether the site is to be served. -/
def isDev (i : Invocation) : Bool :=
  match i.action with
  | .dev _ _ _ _ _ => true
  | _ => false

/-- The directory in which the settings file is looked for. -/
def outerRoot (i : Invocation) : Path := i.root?.getD ⟨"./"⟩

/-- The root of the project, which for a new site with a name is a directory of its own. -/
def innerRoot (i : Invocation) (settings : Settings) : Path :=
  let root := i.root?.getD settings.build.root
  match i.action with
  | .init (some name) => root.join name
  | _ => root

end Command.Invocation

namespace BuildSettings

/-- The settings with what was chosen on the command line. -/
def withFlags (b : BuildSettings) (flags : BuildFlags) : BuildSettings :=
  { b with minify := flags.minify?.getD b.minify, clean := flags.clean?.getD b.clean }

end BuildSettings

namespace Settings

/-- The settings in a file, or the default settings if there is no file. -/
def read (d : Disk) (file : Path) : Except SettingsError Settings :=
  if d.isFile file then
    match d.readText? file with
    | none => .error (.unreadable file)
    | some text =>
      match ofText? text with
      | none => .error (.malformed file)
      | some settings => .ok settings
  else .ok {}

/-- The settings with what an action chooses. -/
def withAction (s : Settings) : Action → Settings
  | .init _ => s
  | .generate flags => { s with build := s.build.withFlags flags }
  | .dev flags interface? port? reloadPort? watch? =>
    { s with
      build := s.build.withFlags flags,
      serve := { s.serve with
        interface := interface?.getD s.serve.interface, port := port?.getD s.serve.port,
        reloadPort := reloadPort?.getD s.serve.reloadPort, watch := watch?.getD s.serve.watch } }

/-- The settings with what a command line chooses, and all directories absolute. -/
def withLine (d : Disk) (s : Settings) (i : Invocation) : Settings :=
  let root := i.innerRoot s
  let build := { s.build with output := i.output?.getD s.build.output }
  { s with file := d.normalize (root.join i.config), build := build.resolve d root }.withAction
    i.action

/-- The settings for a command line. -/
def load (d : Disk) (i : Invocation) : Except SettingsError Settings := do
  let s ← read d (i.outerRoot.join i.config)
  return s.withLine d i

/-- Refuses settings with which a command cannot work. The first fault in the order below is
reported. -/
def check (d : Disk) (s : Settings) (i : Invocation) : Except SettingsError Unit :=
  if i.isInit then
    if d.pathExists s.file then .error .alreadyThere else .ok ()
  else if !d.isDirectory s.build.pages then .error (.noPages s.build.pages)
  else if s.build.extension = "" ∨ s.build.extension.toList.head? = some '.' then
    .error .badExtension
  else if s.build.filters?.isNone then .error .badPattern
  else if i.isDev ∧ s.serve.port = s.serve.reloadPort then .error .samePort
  else .ok ()

end Settings

end StaticSite
