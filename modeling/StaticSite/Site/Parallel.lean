import StaticSite.Files.Disk
import StaticSite.Site.Error

/-!
# Parallel loops

A build goes through its files and documents with several hands at once. The results of a loop come in
the order of its items, but the items themselves are taken up in any order. So which of several
failures comes first, and which of two files at one place is written last, is open; a `Schedule` says
how it goes in one run.

Each item is done as a whole, as if it were alone. That is all that can be told of items which do not
get at the same file; the contents of two that do may even mix.
-/

namespace StaticSite

/-- How a loop goes through its items in one run. -/
structure Schedule (α : Type) where
  /-- the items in the order in which they are taken up -/
  take : List α → List α
  /-- no item is left out or taken twice -/
  perm : ∀ xs, (take xs).Perm xs
  /-- how many items are under way when one fails; they are done all the same -/
  late : Nat := 0

namespace Schedule

variable {α β ε : Type}

/-- One item after the other. -/
def inOrder : Schedule α := ⟨id, fun _ => .rfl, 0⟩

instance : Inhabited (Schedule α) := ⟨inOrder⟩

/-- Finds something out about each item. The failure that comes first is reported. -/
def collect (s : Schedule α) (f : α → Except ε β) (xs : List α) : Except ε (List β) := do
  let _ ← (s.take xs).mapM f
  xs.mapM f

end Schedule

/-- Does something with items one after the other. The first failure ends this, but for some items
under way, whose own failures are not reported. -/
def forEach {α : Type} (f : Disk → α → Disk × Except BuildError Unit) (late : Nat) (d : Disk) :
    List α → Disk × Except BuildError Unit
  | [] => (d, .ok ())
  | x :: xs =>
    match f d x with
    | (d, .ok _) => forEach f late d xs
    | (d, .error e) => ((xs.take late).foldl (fun d x => (f d x).1) d, .error e)

/-- Does something with each item. -/
def Schedule.forEach {α : Type} (s : Schedule α) (f : Disk → α → Disk × Except BuildError Unit)
    (d : Disk) (xs : List α) : Disk × Except BuildError Unit :=
  StaticSite.forEach f s.late d (s.take xs)

end StaticSite
