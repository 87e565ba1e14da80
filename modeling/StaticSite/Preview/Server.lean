import StaticSite.Number.Basic
import StaticSite.Preview.Address
import StaticSite.Preview.Watch

/-!
# Starting the preview

The preview checks its interface, builds the site a first time, and then listens: if the sources are
watched, at the port for reload messages, and in any case at the port for documents. That one gives
way to the next ports if it is taken. A first build that fails does not keep the preview from
starting. Later builds clean nothing away, or the watcher of the output would lose its directory.

Which ports are free is not known here; it is a parameter.
-/

namespace StaticSite.Preview

/-- Why the preview did not start. -/
inductive StartError where
  /-- the interface is no address -/
  | interface (text : String)
  /-- the port for reload messages is taken -/
  | reloadPort (port : Nat)
  /-- all ports that can be used for documents are taken -/
  | ports (first last : Nat)
  deriving DecidableEq, Repr

/-- How many ports are tried for documents. -/
def attempts : Nat := 10

/-- The greatest port. -/
def maxPort : Nat := 65535

/-- A port that is tried for documents. There is none above the greatest. -/
def candidate (port n : Nat) : Nat := min maxPort (port + n)

/-- The ports that are tried for documents. -/
def candidates (port : Nat) : List Nat := (List.range attempts).map (candidate port)

namespace StartError

/-- A number in decimal digits. -/
def number (n : Nat) : String := String.ofList (Number.intText n)

/-- The wording of an error. -/
def display : StartError → String
  | .interface text => "Invalid interface \x60" ++ text ++ "\x60"
  | .reloadPort port => "Failed to bind reload server on port " ++ number port
  | .ports first last =>
    "Failed to bind after " ++ number attempts ++ " attempts (ports " ++ number first ++ "-" ++
      number last ++ "): Address already in use (os error 98)"

end StartError

/-- The preview when it has started. -/
structure Started where
  /-- what the first build did -/
  build : Except BuildError BuildSummary
  /-- the gate through which builds go -/
  gate : Gate
  /-- the port for documents -/
  port : Nat
  /-- the port for reload messages, if the sources are watched -/
  reloadPort? : Option Nat
  /-- the watcher of the sources, if they are watched -/
  watcher? : Option SourceWatcher

/-- The port of the reload client in documents. -/
def clientPort? (s : Settings) : Option Nat :=
  if s.serve.watch then some s.serve.reloadPort else none

/-- Whether documents can be had at a port when the one for reload messages is taken. Port 0 stands for
any that is free. -/
def isOpen (s : Settings) (isFree : Nat → Bool) (port : Nat) : Bool :=
  isFree port && (port == 0 || clientPort? s != some port)

/-- The watcher that builds the site anew, without cleaning. -/
def sourceWatcher? (d : Disk) (s : Settings) (gate : Gate) : Option SourceWatcher :=
  (clientPort? s).map fun port =>
    { SourceWatcher.start d { s.build with clean := false } (some port) with gate }

/-- Starts the preview. What the first build wrote stays, whether the preview starts or not. -/
def start (d : Disk) (s : Settings) (isFree : Nat → Bool) (runtime : Runtime := {}) :
    Disk × Except StartError Started :=
  if Address.isAddress s.serve.interface then
    let (d, build) := Site.build d s.build (clientPort? s) runtime
    let (gate, _) := ({} : Gate).run [attemptOf build]
    match (clientPort? s).filter fun port => !isFree port with
    | some port => (d, .error (.reloadPort port))
    | none =>
      match (candidates s.serve.port).find? (isOpen s isFree) with
      | some port => (d, .ok ⟨build, gate, port, clientPort? s, sourceWatcher? d s gate⟩)
      | none => (d, .error (.ports s.serve.port (candidate s.serve.port (attempts - 1))))
  else (d, .error (.interface s.serve.interface))

end StaticSite.Preview
