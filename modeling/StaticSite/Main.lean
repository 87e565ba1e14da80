import StaticSite.Command.Report
import StaticSite.Preview.Request
import StaticSite.Preview.Server
import StaticSite.Terminal.Screen

/-!
# The program

The words of the command line say what is to be done. The names of the files of the project come in
on standard input, one on a line, up to an empty line or the end:

    find . | vela generate

The files are read into a disk, the command is run on it, and what has changed is written back. A
preview goes on reading: every further line is a request, a method and a URL, and is answered on
standard output.
-/

namespace StaticSite.Main

/-- The width of a terminal that does not tell it. -/
def terminalWidth : Nat := 120

/-- The next line of the input without its line end; `none` at the end of the input. -/
def readLine? (input : IO.FS.Stream) : IO (Option String) := do
  let line ← input.getLine
  return if line.isEmpty then none else some (line.trimAscii.toString)

/-- Puts a file or directory with a name onto a disk. -/
def place (d : Disk) (name : String) : IO Disk := do
  let path : Path := ⟨name⟩
  let content? ← try pure (some (← IO.FS.readBinFile name)) catch _ => pure none
  match content? with
  | none => return (d.makeDirectories path).1
  | some content =>
    let d := match path.parent? with
      | some dir => (d.makeDirectories dir).1
      | none => d
    return (d.write path content).1

/-- Puts all files whose names come in onto a disk. -/
partial def placeAll (input : IO.FS.Stream) (d : Disk) : IO Disk := do
  match ← readLine? input with
  | none => return d
  | some "" => return d
  | some name => placeAll input (← place d name)

/-- Takes away what has gone, the deepest first, and writes what is new. -/
def store (before after : Disk) : IO Unit := do
  let old := before.tree.below []
  let new := after.tree.below []
  for (l, entry) in old.reverse do
    if (after.tree.get? l).isNone then
      let name := (Disk.pathOf l).text
      match entry with
      | .file _ => IO.FS.removeFile name
      | .directory => IO.FS.removeDir name
  for (l, entry) in new do
    let name := (Disk.pathOf l).text
    match entry with
    | .directory => if (before.tree.get? l).isNone then IO.FS.createDirAll name
    | .file content =>
      if before.tree.content? l ≠ some content then IO.FS.writeBinFile name content

/-- Writes lines of output. -/
def report (output : IO.FS.Stream) (lines : List Command.Line) : IO Unit := do
  let screen : Terminal.Screen := { width := terminalWidth }
  for (label, message) in lines do
    output.putStr (screen.log label message)
  output.flush

/-- Answers requests as long as there are any. -/
partial def answer (input output : IO.FS.Stream) (d : Disk) (root : Path) : IO Unit := do
  match ← readLine? input with
  | none => return
  | some line =>
    let method := line.takeWhile (· ≠ ' ')
    let url := line.dropWhile (· ≠ ' ')
    let response := Request.respond d root method.toString url.trimAscii.toString
    output.putStr (Terminal.decimal response.status ++ " " ++ response.type ++ "\n")
    output.write response.body
    output.putStr "\n"
    output.flush
    answer input output d root

/-- Starts a preview and answers requests. -/
def preview (input output : IO.FS.Stream) (d : Disk) (s : Settings) : IO UInt32 := do
  let begun ← IO.monoMsNow
  let (after, started) := Preview.start d s fun _ => true
  store d after
  match started with
  | .error e =>
    report output [("error", e.display)]
    return 1
  | .ok started =>
    match started.build with
    | .ok summary => report output (Command.buildLines s.build.pages summary ((← IO.monoMsNow) - begun))
    | .error e => report output [("dev", "build failed: " ++ Command.buildMessage e)]
    answer input output after s.build.output
    return 0

/-- Runs the command that the words ask for. -/
def run (words : List String) (input output : IO.FS.Stream) : IO UInt32 := do
  let here : Path := ⟨(← IO.getEnv "PWD").getD "/"⟩
  let bare : Disk := ⟨FileTree.empty, []⟩
  let (d, _) := bare.makeDirectories here
  let d ← placeAll input { d with here := (d.locate? here).getD [] }
  let begun ← IO.monoMsNow
  let (after, done) := Command.run d words
  match done with
  | .ok (.serving s) => preview input output d s
  | .ok done =>
    store d after
    report output (done.lines ((← IO.monoMsNow) - begun))
    return 0
  | .error e =>
    store d after
    report output [("error", e.message)]
    return 1

end StaticSite.Main

/-- The program. A command line that is not understood is answered before any file is read. -/
def main (words : List String) : IO UInt32 := do
  let output ← IO.getStdout
  match StaticSite.Command.Invocation.parse words with
  | .error e =>
    output.putStr e.message
    output.flush
    return if e.isQuestion then 0 else 2
  | .ok _ => StaticSite.Main.run words (← IO.getStdin) output
