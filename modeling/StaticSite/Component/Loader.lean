import StaticSite.Component.Registry
import StaticSite.Files.Disk
import StaticSite.Site.Parallel

/-!
# Loading components

Component files are recognised by their extension. `loadAll` reads those of a directory into a
registry: first every file is read, in parallel, and one that is no component is reported, whichever is
found first; then they are entered in the order of their paths, and the first whose name is taken is
reported. A directory that is missing holds no files.
-/

namespace StaticSite.Component

variable {I : Type}

/-- Whether a file has the extension of component files. -/
def isSource (extension : String) (p : Path) : Bool := p.extension? = some extension

/-- The component files of a directory, in the order of a walk. -/
def collect (d : Disk) (extension : String) (dir : Path) : List Path :=
  (d.filesUnder dir).filter (isSource extension)

/-- The component in a file. -/
def load (d : Disk) (p : Path) : Except BuildError (Component I) :=
  match d.readText? p with
  | some raw => ofSource p raw
  | none => .error (.file p)

/-- The components of a directory. -/
def loadAll (d : Disk) (extension : String) (dir : Path) (schedule : Schedule Path := .inOrder) :
    Except BuildError (Registry I) := do
  let components ← schedule.collect (load d) (collect d extension dir)
  components.foldlM Registry.insert {}

end StaticSite.Component
