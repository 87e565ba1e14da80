/-!
# The rebuild gate

Builds do not overlap. A request that comes while a build runs is turned away and remembered; when
the build is over, another one is made for all requests that came meanwhile.

The gate has two doors. `enter` is passed by whoever wants a build, and `settle` by whoever has just
made one; between them the gate is not held.
-/

namespace StaticSite

/-- What the gate is doing. -/
inductive GateState where
  /-- nothing yet -/
  | idle
  /-- a build runs -/
  | building
  /-- a build has been made, and changes are waited for -/
  | watching
  deriving DecidableEq, Repr, Inhabited

/-- The gate: its state, and whether a request came while a build ran. -/
structure Gate where
  /-- what it is doing -/
  state : GateState := .idle
  /-- whether another build is asked for -/
  pending : Bool := false
  deriving DecidableEq, Repr, Inhabited

namespace Gate

/-- A build is asked for. The answer tells whether the one who asks is to make it. -/
def enter (g : Gate) : Gate × Bool :=
  if g.state = .building then ({ g with pending := true }, false)
  else ({ g with state := .building }, true)

/-- A build has been made. The answer tells whether its maker is to make another one. -/
def settle (g : Gate) : Gate × Bool :=
  if g.pending then ({ g with pending := false }, true)
  else ({ g with state := .watching }, false)

/-- A build, as far as the gate sees it: requests that come while it runs, which are turned away,
and whether it fails, which means nothing to the gate. -/
structure Attempt where
  /-- how many requests come while it runs -/
  requests : Nat := 0
  /-- why it fails, if it does -/
  failure? : Option String := none
  deriving Repr, Inhabited

/-- The gate while a build runs, and what the requests meanwhile are answered. -/
def during (g : Gate) (a : Attempt) : Gate × List Bool :=
  (List.range a.requests).foldl
    (fun (g, answers) _ =>
      let (g, answer) := g.enter
      (g, answers ++ [answer]))
    (g, [])

/-- A build that was made: the state of the gate when it started, and the answers to the requests
that came while it ran. -/
structure Made where
  /-- the state of the gate at its start -/
  state : GateState
  /-- the answers to requests -/
  answers : List Bool
  deriving DecidableEq, Repr

/-- Makes builds for as long as the gate asks for them. `attempts` tells how the builds to come go;
without a word about it, a build succeeds and no request comes. -/
def make (g : Gate) : List Attempt → Gate × List Made
  | [] =>
    let made : Made := ⟨g.state, []⟩
    match g.settle with
    | (g, false) => (g, [made])
    | (g, true) =>
      let again : Made := ⟨g.state, []⟩
      (g.settle.1, [made, again])
  | a :: attempts =>
    let state := g.state
    let (g, answers) := g.during a
    match g.settle with
    | (g, false) => (g, [⟨state, answers⟩])
    | (g, true) =>
      let (g, rest) := g.make attempts
      (g, ⟨state, answers⟩ :: rest)

/-- A build is asked for and made, if the gate says so. -/
def run (g : Gate) (attempts : List Attempt) : Gate × Bool × List Made :=
  match g.enter with
  | (g, false) => (g, false, [])
  | (g, true) =>
    let (g, made) := g.make attempts
    (g, true, made)

end Gate

end StaticSite
