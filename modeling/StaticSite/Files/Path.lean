import StaticSite.Text.Span

/-!
# Paths

A path is a text; how it is spelled shows in messages and in what it is joined with. What it means
is the list of its *parts*: the root, a leading single dot, double dots and names. Slashes that
repeat, single dots further in and slashes at the end spell nothing. Two paths are `same` when their
parts agree.

Taking a path apart (`parent?`, `below?`) keeps the spelling of what is left, but for the slashes
and dots at the place of the cut.
-/

namespace StaticSite

open Text

/-- The spelling of a path. -/
structure Path where
  /-- the text -/
  text : String
  deriving DecidableEq, Repr, Inhabited

namespace Path

/-- What a path is made of. -/
inductive Part where
  /-- the slash at the start of an absolute path -/
  | root
  /-- a single dot at the start of a relative path -/
  | current
  /-- the way up -/
  | parent
  /-- a name -/
  | name (value : String)
  deriving DecidableEq, Repr

/-- The place of a part in the order of paths. -/
def Part.rank : Part → Nat × String
  | .root => (0, "")
  | .current => (1, "")
  | .parent => (2, "")
  | .name s => (3, s)

/-- The text of a part. -/
def Part.text : Part → String
  | .root => "/"
  | .current => "."
  | .parent => ".."
  | .name s => s

/-- The stretches between the slashes of a path. -/
def segments (p : Path) : List String := (splitOn '/' p.text.toList).map String.ofList

/-- A path that starts at the root. -/
def isAbsolute (p : Path) : Bool := p.text.toList.head? = some '/'

/-- The root or the single dot with which a path starts. -/
def head? (p : Path) : Option Part :=
  if p.isAbsolute then some .root
  else if p.segments.head? = some "." then some .current
  else none

/-- The stretches behind the head. -/
def body (p : Path) : List String := if p.head?.isSome then p.segments.tail else p.segments

/-- A stretch that spells nothing. -/
def isIdle (segment : String) : Bool := segment == "" || segment == "."

/-- A stretch that does not lead to a name. -/
def isDots (segment : String) : Bool := isIdle segment || segment == ".."

/-- The part that a stretch behind the head spells. -/
def partOf? (segment : String) : Option Part :=
  if isIdle segment then none
  else if segment = ".." then some .parent
  else some (.name segment)

/-- What a path is made of. -/
def parts (p : Path) : List Part := p.head?.toList ++ p.body.filterMap partOf?

/-- Two spellings of one path. -/
def same (p q : Path) : Bool := p.parts = q.parts

/-- A path from a head and the stretches behind it. -/
def assemble (head? : Option Part) (body : List String) : Path :=
  let tail := "/".intercalate body
  match head? with
  | some .root => ⟨"/" ++ tail⟩
  | some .current => ⟨if body = [] then "." else "./" ++ tail⟩
  | _ => ⟨tail⟩

/-- A list of stretches without idle ones at its end. -/
def dropIdleEnd (body : List String) : List String := (body.reverse.dropWhile isIdle).reverse

/-- The stretches of a path without empty ones at its end, which are those that slashes leave there. -/
def stretches (p : Path) : List String := (p.segments.reverse.dropWhile (· = "")).reverse

/-- Whether the last stretch of a path is a name, and neither missing nor made of dots. -/
def endsInName (p : Path) : Bool := p.stretches.getLast?.any fun s => s != "." && s != ".."

/-- A relative path below another one; an absolute path stands for itself. -/
def join (p q : Path) : Path :=
  if q.isAbsolute then q
  else if p.text = "" ∨ p.text.toList.getLast? = some '/' then ⟨p.text ++ q.text⟩
  else ⟨p.text ++ "/" ++ q.text⟩

/-- A name below a path. -/
def child (p : Path) (name : String) : Path := p.join ⟨name⟩

/-- The path without its last part. -/
def parent? (p : Path) : Option Path :=
  match dropIdleEnd p.body with
  | [] => if p.head? = some .current then some ⟨""⟩ else none
  | body => some (assemble p.head? (dropIdleEnd body.dropLast))

/-- The last part, if it is a name. -/
def fileName? (p : Path) : Option String :=
  match (dropIdleEnd p.body).getLast? with
  | some ".." => none
  | name? => name?

/-- A name split at its last dot, unless that dot is its first character. -/
def splitName (name : String) : String × Option String :=
  let reversed := name.toList.reverse
  match reversed.dropWhile (· ≠ '.') with
  | [] => (name, none)
  | [_] => (name, none)
  | _ :: stem =>
    (String.ofList stem.reverse, some (String.ofList (reversed.takeWhile (· ≠ '.')).reverse))

/-- The last name without its extension. -/
def stem? (p : Path) : Option String := p.fileName?.map fun name => (splitName name).1

/-- What follows the last dot of the last name. -/
def extension? (p : Path) : Option String := p.fileName?.bind fun name => (splitName name).2

/-- Leaves out the first `n` stretches that are not idle. -/
def dropParts : Nat → List String → List String
  | 0, body => body
  | _ + 1, [] => []
  | n + 1, segment :: body => if isIdle segment then dropParts (n + 1) body else dropParts n body

/-- The rest of a path that lies below another one. -/
def below? (p base : Path) : Option Path :=
  if base.parts.isPrefixOf p.parts then
    if base.parts = [] then some (assemble p.head? (dropIdleEnd p.body))
    else
      let rest := dropParts (base.parts.length - p.head?.toList.length) p.body
      some (assemble none (dropIdleEnd (rest.dropWhile isIdle)))
  else none

/-- The rest of a path below another one, or the path itself if it does not lie there. -/
def relativeTo (p base : Path) : Path := (p.below? base).getD p

/-- One step of `clean` on the parts so far, the last one first. -/
def cleanStep (done : List Part) : Part → List Part
  | .current => done
  | .parent =>
    match done with
    | [] => [.parent]
    | .root :: _ => .parent :: done
    | _ :: before => before
  | part => part :: done

/-- The path of a list of parts. -/
def ofParts (parts : List Part) : Path := parts.foldl (fun p part => p.child part.text) ⟨""⟩

/-- The path with single dots left out and double dots taken together with what they follow. Only
the spelling is looked at, never a file. -/
def clean (p : Path) : Path := ofParts (p.parts.foldl cleanStep []).reverse

/-- The order of paths, part by part. -/
def le (p q : Path) : Bool := go p.parts q.parts
where
  /-- The order of lists of parts. -/
  go : List Part → List Part → Bool
    | [], _ => true
    | _ :: _, [] => false
    | a :: as, b :: bs =>
      let (m, s) := a.rank
      let (n, t) := b.rank
      if m ≠ n then m < n else if s ≠ t then s < t else go as bs

end Path

end StaticSite
