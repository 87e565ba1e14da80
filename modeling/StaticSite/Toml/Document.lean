import StaticSite.Toml.Value

/-!
# Documents of TOML

A document is a row of statements, each on a line of its own: a header opens a table, and an
assignment gives a value to a key of the table that was opened last. Keys with dots pass through
tables that nobody has to open.

What a document says must not clash. Every statement makes *uses* of places: it opens a table,
passes through one, or seals a place by putting a value there. `Use.clashes` tells which two uses
cannot be made in one document, and `leaves?` lists what a document without a clash says.
-/

namespace StaticSite.Toml

/-- One statement. -/
inductive Statement where
  /-- a table is opened -/
  | header (path : KeyPath)
  /-- a key of the open table gets a value -/
  | assignment (key : KeyPath) (value : Value)

/-- Takes a line end, or the end of the document, off some tokens. -/
def endStatement? : List Token → Option (List Token)
  | [] => some []
  | .lineEnd :: ts => some ts
  | _ => none

/-- The statement at the start of some tokens, to the end of its line. -/
def readStatement? (ts : List Token) : Option (Read Statement ts) :=
  match ts with
  | .mark '[' :: us =>
    match h : readPath? us with
    | some (path, .mark ']' :: vs) =>
      match he : endStatement? vs with
      | some rest => some ⟨.header path, rest, by
          have := length_of_readPath? h
          unfold endStatement? at he
          grind⟩
      | none => none
    | _ => none
  | ts =>
    match h : readPath? ts with
    | some (key, .mark '=' :: us) => do
      let v ← readValue? us
      match he : endStatement? v.rest with
      | some rest => some ⟨.assignment key v.value, rest, by
          have := length_of_readPath? h
          have := v.shorter
          unfold endStatement? at he
          grind⟩
      | none => none
    | _ => none

/-- All statements of some tokens. -/
def readStatements? (ts : List Token) : Option (List Statement) :=
  match ts with
  | [] => some []
  | .lineEnd :: us => readStatements? us
  | t :: us => do
    let s ← readStatement? (t :: us)
    have := s.shorter
    return s.value :: (← readStatements? s.rest)
termination_by ts.length
decreasing_by all_goals (simp only [List.length_cons] at *; omega)

/-! ## Uses of places -/

/-- What is done at a place of a document. -/
inductive Use where
  /-- a header opens the table there -/
  | opened
  /-- a key with dots passes through the table there -/
  | passed
  /-- a value is put there -/
  | sealed
  deriving DecidableEq, Repr

/-- Whether two uses cannot both be made. Nothing can be done at or below a place with a value, and
a table is opened once or passed through, but not both. -/
def Use.clashes : KeyPath × Use → KeyPath × Use → Bool
  | (p, .sealed), (q, _) => p.isPrefixOf q
  | (p, _), (q, .sealed) => q.isPrefixOf p
  | (_, .passed), (_, .passed) => false
  | (p, _), (q, _) => p = q

/-- The places that a key below a table passes through, and the one at which it ends. -/
def usesOfKey (table key : KeyPath) : List (KeyPath × Use) :=
  (List.range (key.length - 1)).map (fun n => (table ++ key.take (n + 1), Use.passed)) ++
    [(table ++ key, .sealed)]

/-- The uses that the statements make, `table` being open at their start. -/
def usesOf (table : KeyPath) : List Statement → List (KeyPath × Use)
  | [] => []
  | .header path :: rest => (path, .opened) :: usesOf path rest
  | .assignment key _ :: rest => usesOfKey table key ++ usesOf table rest

/-- Whether no two uses clash. -/
def compatible : List (KeyPath × Use) → Bool
  | [] => true
  | u :: us => us.all (!Use.clashes u ·) && compatible us

mutual

/-- Whether the tables within a value have no clash in them. -/
def Value.consistent : Value → Bool
  | .list items => consistentItems items
  | .table members =>
    compatible (members.flatMap fun (key, _) => usesOfKey [] key) && consistentMembers members
  | _ => true

/-- Whether all items of a list are consistent. -/
def consistentItems : List Value → Bool
  | [] => true
  | v :: vs => v.consistent && consistentItems vs

/-- Whether all members of a table are consistent. -/
def consistentMembers : List (KeyPath × Value) → Bool
  | [] => true
  | (_, v) :: members => v.consistent && consistentMembers members

end

/-- Whether a statement has no clash within its value. -/
def Statement.consistent : Statement → Bool
  | .header _ => true
  | .assignment _ v => v.consistent

/-! ## What a document says -/

/-- What stands at a place: a table, or a value that is none. -/
abbrev Leaf := KeyPath × Option Value

mutual

/-- What a value at a place says. -/
def leavesOfValue (path : KeyPath) : Value → List Leaf
  | .table members => (path, none) :: leavesOfMembers path members
  | v => [(path, some v)]

/-- What the members of a table say. -/
def leavesOfMembers (path : KeyPath) : List (KeyPath × Value) → List Leaf
  | [] => []
  | (key, v) :: members => leavesOfValue (path ++ key) v ++ leavesOfMembers path members

end

/-- What statements say, `table` being open at their start. -/
def leavesOf (table : KeyPath) : List Statement → List Leaf
  | [] => []
  | .header path :: rest => (path, none) :: leavesOf path rest
  | .assignment key v :: rest => leavesOfValue (table ++ key) v ++ leavesOf table rest

/-- What a document says, place by place. A byte order mark at its start does not count. -/
def leaves? (s : List Char) : Option (List Leaf) := do
  let text := match s with
    | '\ufeff' :: t => t
    | t => t
  let statements ← readStatements? (← Token.ofText? text)
  guard (compatible (usesOf [] statements) && statements.all (·.consistent))
  return leavesOf [] statements

end StaticSite.Toml
