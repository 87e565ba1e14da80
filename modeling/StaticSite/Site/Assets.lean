import StaticSite.Site.Parallel

/-!
# Assets

The asset index holds the text of every asset file that may be used as a style sheet, under its
cleaned path; `resolve?` finds a file in it by a reference from a component, which is relative to the
root of the project. `copyAssets` puts all asset files into the output directory, each at its place.
Both go through the files in parallel.
-/

namespace StaticSite

/-- The asset files that can be used as style sheets. -/
structure AssetIndex where
  /-- cleaned paths with the content of the files -/
  files : List (Path × String) := []
  deriving Inhabited

namespace AssetIndex

/-- Reads the files of a directory whose path is selected. A file that is not readable text is reported,
whichever is found first. -/
def load (d : Disk) (dir : Path) (selects : String → Bool) (schedule : Schedule Path := .inOrder) :
    Except BuildError AssetIndex := do
  let read (p : Path) : Except BuildError (Path × String) :=
    match d.readText? p with
    | some content => .ok (p.clean, content)
    | none => .error (.file p)
  let files ← schedule.collect read ((d.filesUnder dir).filter fun p => selects p.text)
  return ⟨files⟩

/-- The content of the file with a path, however that is spelled. -/
def get? (index : AssetIndex) (p : Path) : Option String :=
  (index.files.reverse.find? fun (q, _) => q.same p.clean).map (·.2)

/-- The content of the file that a component refers to. A slash in front does not count. -/
def resolve? (index : AssetIndex) (root : Path) (style : String) : Option String :=
  index.get? (root.join ⟨String.ofList (style.toList.dropWhile (· = '/'))⟩)

end AssetIndex

/-- Makes the directory that a file is to lie in, with those above it. -/
def makeParent (d : Disk) (p : Path) : Disk × Except BuildError Unit :=
  match p.parent? with
  | none => (d, .ok ())
  | some dir =>
    match d.makeDirectories dir with
    | (d, true) => (d, .ok ())
    | (d, false) => (d, .error (.file dir))

/-- Makes the directory of a file and then the file, which can fail with a path to be reported. -/
def putFile (d : Disk) (p : Path) (write : Disk → Disk × Bool) (reported : Path) :
    Disk × Except BuildError Unit :=
  match makeParent d p with
  | (d, .error e) => (d, .error e)
  | (d, .ok _) =>
    match write d with
    | (d, true) => (d, .ok ())
    | (d, false) => (d, .error (.file reported))

/-- Copies one asset to its place below the output directory. -/
def copyAsset (d : Disk) (assets output source : Path) : Disk × Except BuildError Unit :=
  let target := output.join (source.relativeTo assets)
  putFile d target (fun d => d.copy source target) source

/-- Copies all assets below the output directory and counts them. -/
def copyAssets (d : Disk) (assets output : Path) (schedule : Schedule Path := .inOrder) :
    Disk × Except BuildError Nat :=
  let files := d.filesUnder assets
  match schedule.forEach (fun d source => copyAsset d assets output source) d files with
  | (d, .ok _) => (d, .ok files.length)
  | (d, .error e) => (d, .error e)

end StaticSite
