import StaticSite.Files.Path

/-!
# Changes at rest

A burst of changes is reported as one batch, once nothing has changed for a while. The files that
editors leave about while they work do not count: they are neither reported nor do they keep a batch
waiting that has nothing else in it.
-/

namespace StaticSite

/-- Extensions of the files that editors leave about. -/
def scratchExtensions : List String := ["bck", "bak", "backup", "swp", "swo", "swx", "tmp"]

/-- Whether a file is one of those that editors leave about. -/
def Path.isScratch (p : Path) : Bool :=
  let name := (p.fileName?.getD "").toList
  scratchExtensions.contains (p.extension?.getD "") ||
    name.getLast? == some '~' || name.head? == some '.' || name.head? == some '#' ||
    name == "4913".toList

/-- Changes that wait to be reported. Times are in milliseconds. -/
structure Debouncer where
  /-- how long nothing must have changed -/
  window : Nat
  /-- the changed files, each once, spelled as at first -/
  pending : List Path := []
  /-- when the last change was seen -/
  last? : Option Nat := none
  deriving DecidableEq, Repr, Inhabited

namespace Debouncer

/-- How long to wait for a change when there is none. -/
def idleTimeout : Nat := 60000

/-- Puts a path to others, unless it is there in some spelling. -/
def note (pending : List Path) (p : Path) : List Path :=
  if pending.any (·.same p) then pending else pending ++ [p]

/-- Files have changed at a time. -/
def add (b : Debouncer) (paths : List Path) (now : Nat) : Debouncer :=
  let pending := (paths.filter (!·.isScratch)).foldl note b.pending
  { b with pending, last? := if pending.isEmpty then b.last? else some now }

/-- Whether the changes can be reported. -/
def isReady (b : Debouncer) (now : Nat) : Bool :=
  !b.pending.isEmpty && b.last?.any fun last => b.window ≤ now - last

/-- The changes in the order of their paths, none of them waiting any longer. -/
def take (b : Debouncer) : List Path × Debouncer :=
  (b.pending.mergeSort Path.le, { b with pending := [], last? := none })

/-- How long to wait for the next change before looking again. -/
def timeout (b : Debouncer) : Nat := if b.pending.isEmpty then idleTimeout else b.window

/-- What an event says about files. -/
inductive EventKind where
  /-- that something is known of them, but not what -/
  | unknown
  /-- that they were opened, read or closed -/
  | accessed
  /-- that they were made -/
  | made
  /-- that their contents, names or attributes are others now -/
  | changed
  /-- that they were removed -/
  | removed
  /-- anything else -/
  | other
  deriving DecidableEq, Repr

/-- Whether an event of this kind is about a change. -/
def EventKind.isRelevant : EventKind → Bool
  | .made | .changed | .removed => true
  | .unknown | .accessed | .other => false

/-- What a watcher hears of. -/
inductive Signal where
  /-- an event about files -/
  | event (kind : EventKind) (paths : List Path)
  /-- the watcher itself failed -/
  | failure
  /-- nothing, for as long as was waited -/
  | silence
  deriving DecidableEq, Repr

/-- One round of watching: what was heard and when. A batch is handed out only after silence. -/
def round (b : Debouncer) (now : Nat) : Signal → Debouncer × Option (List Path)
  | .event kind paths => (if kind.isRelevant then b.add paths now else b, none)
  | .failure => (b, none)
  | .silence =>
    if b.isReady now then
      let (batch, b) := b.take
      (b, some batch)
    else (b, none)

/-- The batches that a watcher hands out over time. -/
def watch (b : Debouncer) : List (Nat × Signal) → List (List Path)
  | [] => []
  | (now, signal) :: signals =>
    match b.round now signal with
    | (b, some batch) => batch :: watch b signals
    | (b, none) => watch b signals

end Debouncer

end StaticSite
