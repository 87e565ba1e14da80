import StaticSite.Files.Tree

/-!
# Working with files by path

A disk is a file tree and the directory in which relative paths start. A path is followed name by
name: everything that is passed on the way must be a directory, double dots lead to the directory
above, and the last name may be missing, so that something can be put there.

What is written can fail half-way, with some directories made already; so the operations that write
answer with the disk as it is then and with whether they got to their end.
-/

namespace StaticSite

/-- A file tree and the directory in which relative paths start. -/
structure Disk where
  /-- the files -/
  tree : FileTree
  /-- the working directory -/
  here : Location
  deriving Inhabited

namespace Disk

/-- The location of a directory's path text. -/
def pathOf (l : Location) : Path := ⟨"/" ++ "/".intercalate l⟩

/-- Follows one stretch of a path from a directory. -/
def follow? (t : FileTree) (l : Location) (segment : String) : Option Location :=
  if !t.isDirectory l then none
  else if Path.isIdle segment then some l
  else if segment = ".." then some l.dropLast
  else if IsFileName segment then some (l ++ [segment])
  else none

/-- Where a path starts. -/
def start (d : Disk) (p : Path) : Location := if p.isAbsolute then [] else d.here

/-- The location to which a path leads. Nothing needs to stand there. -/
def locate? (d : Disk) (p : Path) : Option Location :=
  if p.text = "" then none else p.segments.foldlM (follow? d.tree) (d.start p)

/-- What stands at a path. -/
def entry? (d : Disk) (p : Path) : Option Entry := (d.locate? p).bind d.tree.get?

/-- Whether something stands at a path. -/
def pathExists (d : Disk) (p : Path) : Bool := (d.entry? p).isSome

/-- Whether a directory stands at a path. -/
def isDirectory (d : Disk) (p : Path) : Bool := d.entry? p = some .directory

/-- The bytes of the file at a path. -/
def read? (d : Disk) (p : Path) : Option ByteArray :=
  match d.entry? p with
  | some (.file content) => some content
  | _ => none

/-- Whether a file stands at a path. -/
def isFile (d : Disk) (p : Path) : Bool := (d.read? p).isSome

/-- The text of the file at a path; `none` also if its bytes are no UTF-8. -/
def readText? (d : Disk) (p : Path) : Option String := (d.read? p).bind String.fromUTF8?

/-- The path of what stands at a path, from the top and without detours. -/
def resolve? (d : Disk) (p : Path) : Option Path :=
  (d.locate? p).bind fun l => if (d.tree.get? l).isSome then some (pathOf l) else none

/-- The files at or below a path in the order of a walk, each spelled as that path with names put
behind it. -/
def filesUnder (d : Disk) (dir : Path) : List Path :=
  match d.locate? dir with
  | none => []
  | some l => (d.tree.filesAt l).map fun file => (file.drop l.length).foldl Path.child dir

/-! ## Writing -/

/-- The disk with another tree. -/
def withTree (d : Disk) (t : FileTree) : Disk := { d with tree := t }

/-- Follows one stretch of a path and makes the directory that it names, if nothing is there. -/
def makeStep (state : FileTree × Option Location) (segment : String) :
    FileTree × Option Location :=
  match state with
  | (t, none) => (t, none)
  | (t, some l) =>
    match follow? t l segment with
    | none => (t, none)
    | some next =>
      match t.get? next with
      | some .directory => (t, some next)
      | some (.file _) => (t, none)
      | none =>
        match t.put? l segment .directory with
        | some t' => (t', some next)
        | none => (t, none)

/-- Makes a directory and those above it. -/
def makeDirectories (d : Disk) (p : Path) : Disk × Bool :=
  if p.text = "" then (d, true)
  else
    let (t, reached) := p.segments.foldl makeStep (d.tree, some (d.start p))
    (d.withTree t, reached.isSome)

/-- Puts a file with this content at a path, in place of a file that may be there. Its directory must
exist. -/
def write (d : Disk) (p : Path) (content : ByteArray) : Disk × Bool :=
  match d.locate? p with
  | none => (d, false)
  | some l =>
    match l.getLast? with
    | none => (d, false)
    | some name =>
      match d.tree.put? l.dropLast name (.file content) with
      | some t => (d.withTree t, true)
      | none => (d, false)

/-- Whether the directory above a path can be reached when the disk has come to hold another tree. The
working directory can be left upwards even if it is gone. -/
def reachesAbove (d : Disk) (p : Path) (t : FileTree) : Bool :=
  let way := p.stretches.dropLast
  match (way.takeWhile Path.isDots).foldlM (follow? d.tree) (d.start p) with
  | none => false
  | some l =>
    let names := way.dropWhile Path.isDots
    names = [] || (names.foldlM (follow? t) l).any t.isDirectory

/-- Takes away a directory: everything in it, and then the directory itself by the same path. If the way
to the directory above is lost by then, the directory stays, and nothing is amiss. If the last stretch
is no name, the directory cannot be taken out of the one above it; that is a failure, and it comes when
the directory has been emptied. -/
def removeDirectory (d : Disk) (p : Path) : Disk × Bool :=
  match d.locate? p with
  | none => (d, false)
  | some l =>
    if d.tree.isDirectory l then
      let emptied := d.tree.emptied l
      if !d.reachesAbove p emptied then (d.withTree emptied, true)
      else if p.endsInName then (d.withTree (d.tree.prune l), true)
      else (d.withTree emptied, false)
    else (d, false)

/-- Takes away what stands at a path. -/
def remove (d : Disk) (p : Path) : Disk :=
  match d.locate? p with
  | none => d
  | some l => d.withTree (d.tree.prune l)

/-- Copies a file over another one. The target is emptied before the source is read, so a file that
is copied onto itself ends up empty. -/
def copy (d : Disk) (source target : Path) : Disk × Bool :=
  match d.read? source with
  | none => (d, false)
  | some content =>
    if d.locate? source = d.locate? target then d.write target ByteArray.empty
    else d.write target content

end Disk

end StaticSite
