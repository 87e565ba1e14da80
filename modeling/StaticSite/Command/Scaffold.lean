import StaticSite.Command.Load

/-!
# Starting a site

A new site has a page, a component and two style sheets, a settings file with the default settings,
and two files that keep its output directory out of version control. Nothing that exists is
overwritten: a source directory that is there already ends the work, and so does any file in a
directory that is to be the site itself.
-/

namespace StaticSite

/-- Why a site cannot be started. What was made before stays. -/
inductive ScaffoldError where
  /-- the directory has files in it -/
  | notEmpty
  /-- a source directory exists -/
  | taken (path : Path)
  /-- a file or directory that cannot be read or made -/
  | file (path : Path)
  deriving DecidableEq, Repr

namespace ScaffoldError

/-- The wording of an error. -/
def display : ScaffoldError → String
  | .notEmpty =>
    "Current directory is not empty. " ++
      "Use \x60vela init <SITE_NAME>\x60 to create in a subdirectory."
  | .taken path =>
    "Path \x60" ++ path.text ++ "\x60 already exists. Try \x60vela init <SITE_NAME>\x60 instead."
  | .file path => "Failed to write " ++ path.text

end ScaffoldError

namespace Scaffold

/-- The style sheet of the starter page. -/
def siteSheet : String :=
  "body \x7b\n  font-family: system-ui, sans-serif;\n  margin: 0 auto;\n" ++
  "  max-width: 42rem;\n  padding: 2rem 1rem;\n\x7d\n"

/-- The style sheet of the starter component. -/
def cardSheet : String :=
  ".card \x7b\n  border: 1px solid #ddd;\n  border-radius: 0.5rem;\n  padding: 1rem;\n\x7d\n"

/-- The starter component. -/
def card : String :=
  "<template>\n  <div class=\"card\">\n    <h2>\x7b\x7b title \x7d\x7d</h2>\n" ++
  "    <slot>Nothing here yet.</slot>\n  </div>\n</template>\n\n" ++
  "<script>\nexport default \x7b\n  css: [\"assets/card.css\"],\n" ++
  "  props: \x7b title: \"Untitled\" \x7d,\n\x7d\n</script>\n"

/-- The starter page. -/
def page : String :=
  "<template>\n  <main>\n    <h1>\x7b\x7b title \x7d\x7d</h1>\n" ++
  "    <Card title=\"Getting started\">\n" ++
  "      Edit this page under pages/ and the card under components/.\n" ++
  "    </Card>\n  </main>\n</template>\n\n" ++
  "<script>\nexport default \x7b\n  css: [\"assets/site.css\"],\n" ++
  "  props: \x7b title: \"Hello, vela\" \x7d,\n\x7d\n</script>\n"

/-- The files that keep paths out of version control. -/
def ignoreFiles : List String := [".gitignore", ".ignore"]

/-- One step of the work. -/
abbrev Step := Disk → Disk × Except ScaffoldError Unit

/-- Does steps in order, up to the first that fails. -/
def steps (d : Disk) : List Step → Disk × Except ScaffoldError Unit
  | [] => (d, .ok ())
  | f :: fs =>
    match f d with
    | (d, .ok _) => steps d fs
    | (d, .error e) => (d, .error e)

/-- Refuses a directory with something in it. A directory that is missing has nothing in it. -/
def requireEmpty (dir : Path) : Step := fun d =>
  match d.locate? dir with
  | none => (d, .ok ())
  | some l =>
    match d.tree.get? l with
    | none => (d, .ok ())
    | some (.file _) => (d, .error (.file dir))
    | some .directory =>
      if (d.tree.below l).isEmpty then (d, .ok ()) else (d, .error .notEmpty)

/-- Makes a directory that must not be there. -/
def makeNew (dir : Path) : Step := fun d =>
  if d.pathExists dir then (d, .error (.taken dir))
  else match d.makeDirectories dir with
    | (d, true) => (d, .ok ())
    | (d, false) => (d, .error (.file dir))

/-- Writes a file. -/
def put (path : Path) (content : String) : Step := fun d =>
  match d.write path content.toUTF8 with
  | (d, true) => (d, .ok ())
  | (d, false) => (d, .error (.file path))

/-- Writes a file unless something stands there. -/
def putNew (path : Path) (content : String) : Step := fun d =>
  if d.pathExists path then (d, .ok ()) else put path content d

/-- The steps of starting a site. -/
def plan (s : Settings) (hasName : Bool) : List Step :=
  let b := s.build
  let ignored := "/" ++ (b.output.relativeTo b.root).text ++ "/\n"
  (if hasName then [] else [requireEmpty b.root]) ++
    [makeNew b.pages, makeNew b.components, makeNew b.assets,
      put (b.pages.child ("index." ++ b.extension)) page,
      put (b.components.child ("Card." ++ b.extension)) card,
      put (b.assets.child "site.css") siteSheet,
      put (b.assets.child "card.css") cardSheet,
      put s.file ({} : Settings).toText] ++
    ignoreFiles.map fun name => putNew (b.root.child name) ignored

/-- Starts a site. -/
def run (d : Disk) (s : Settings) (hasName : Bool) : Disk × Except ScaffoldError Unit :=
  steps d (plan s hasName)

end Scaffold

end StaticSite
