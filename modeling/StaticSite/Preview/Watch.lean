import StaticSite.Preview.Debounce
import StaticSite.Preview.Gate
import StaticSite.Site.Build
import StaticSite.Terminal.Layout

/-!
# Watching

Two watchers run while a site is served. One watches the directories of the sources and builds the
site anew when something in them has changed. The other watches the output directory and tells the
reload hub about changed documents. Both leave out the files that editors leave about.
-/

namespace StaticSite.Preview

/-- The directories in which the sources of a site are. -/
def sourceDirectories (b : BuildSettings) : List Path := [b.pages, b.components, b.assets]

/-- The directories of the sources that exist. Only these are watched. -/
def watched (d : Disk) (b : BuildSettings) : List Path :=
  (sourceDirectories b).filter fun dir => d.pathExists dir

/-- The message that a directory is watched. -/
def watchMessage (root dir : Path) : String := (dir.relativeTo root).text ++ "/"

/-- Which of some changed files are reported: those in the directories, in the order of paths, each
once. -/
def reported (dirs changed : List Path) : List Path :=
  let inside := changed.filter fun p => dirs.any fun dir => (p.below? dir).isSome
  (({ window := 0 } : Debouncer).add inside 0).take.1

/-- A build as the gate sees it, when no request comes while it runs. -/
def attemptOf (build : Except BuildError BuildSummary) : Gate.Attempt where
  failure? := match build with
    | .ok _ => none
    | .error e => some e.display

/-- The watcher of the sources. -/
structure SourceWatcher where
  /-- how the site is built -/
  settings : BuildSettings
  /-- the port of the reload client in documents, if they have one -/
  clientPort? : Option Nat := none
  /-- the directories that are watched -/
  dirs : List Path
  /-- the gate through which builds go -/
  gate : Gate := {}

namespace SourceWatcher

/-- Starts to watch the directories that exist. -/
def start (d : Disk) (settings : BuildSettings) (clientPort? : Option Nat := none) :
    SourceWatcher :=
  { settings, clientPort?, dirs := watched d settings }

/-- Builds the site because files have changed. -/
def rebuild (w : SourceWatcher) (d : Disk) (runtime : Runtime := {}) :
    Disk × SourceWatcher × Except BuildError BuildSummary :=
  let (d, build) := Site.build d w.settings w.clientPort? runtime
  let (gate, _) := w.gate.run [attemptOf build]
  (d, { w with gate }, build)

end SourceWatcher

/-- Starts to watch the output directory, which is made if it is missing. -/
def watchOutput (d : Disk) (b : BuildSettings) : Disk := (d.makeDirectories b.output).1

end StaticSite.Preview
