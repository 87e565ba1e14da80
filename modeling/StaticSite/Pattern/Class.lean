import StaticSite.Pattern.Escape

/-!
# Character classes

Between brackets stand characters, ranges, escapes, named sets and further classes; a caret in front
asks for everything else. Two equal signs are an operation on what stands before and behind them,
and operations are carried out from left to right.

Which letters belong together is only known for ASCII. So a class under the options for both cases
and for Unicode may only be made of other classes.
-/

namespace StaticSite.Pattern

open Text

/-- What has been read of a class since its last operation. -/
structure Items where
  /-- the characters -/
  set : CharSet := .empty
  /-- how many items they come from -/
  count : Nat := 0
  /-- how deep the deepest item nests -/
  depth : Nat := 0

/-- One item more. -/
def Items.add (items : Items) (set : CharSet) (depth : Nat) : Items :=
  ⟨items.set.union set, items.count + 1, max items.depth depth⟩

/-- How deep the items nest, taken together. -/
def Items.nesting (items : Items) : Nat := if items.count ≤ 1 then items.depth else items.depth + 1

/-- The operations between the parts of a class. -/
inductive SetOperation where
  /-- the common characters -/
  | both
  /-- the characters of the first part alone -/
  | without
  /-- the characters of exactly one part -/
  | either

/-- An operation on two sets. -/
def SetOperation.apply : SetOperation → CharSet → CharSet → CharSet
  | .both, s, t => s.inter t
  | .without, s, t => s.without t
  | .either, s, t => (s.without t).union (t.without s)

/-- A class that has been read, or a part of it. -/
structure Class where
  /-- the characters -/
  set : CharSet
  /-- how deep it nests -/
  depth : Nat

/-- A set with both cases of its letters, if they are asked for. -/
def cased (o : Options) (set : CharSet) : CharSet := if o.anyCase then set.foldAscii else set

/-- What stands before the last operation, taken together with what has been read since. -/
def joinParts (o : Options) (left : Option (Class × SetOperation)) (items : Items) : Class :=
  match left with
  | none => ⟨items.set, items.nesting⟩
  | some (l, op) => ⟨op.apply (cased o l.set) (cased o items.set), 1 + max l.depth items.nesting⟩

/-- The set that a class stands for. Without the Unicode option there is nothing outside of it that
could be described. -/
def close? (o : Options) (negated : Bool) (c : Class) : Option Class :=
  let set := cased o c.set
  if !negated then some ⟨set, 1 + c.depth⟩
  else if o.unicode then some ⟨set.complement, 1 + c.depth⟩
  else none

/-- Whether classes can have characters of their own. -/
def hasItems (o : Options) : Bool := !(o.unicode && o.anyCase)

/-- The set that an item of a class stands for. -/
def itemSet? (o : Options) : Escaped → Option CharSet
  | .char c _ => if hasItems o && (o.unicode || c.toNat < 128) then some (.one c) else none
  | .set set => if hasItems o then some set else none
  | .edge _ => none

/-- One character of a class, or what an escape stands for. -/
def classItem? (o : Options) : List Char → Option (Escaped × List Char)
  | [] => none
  | '\\' :: s => escape? o s
  | c :: s => some (.char c false, s)

/-- A range, a single character or an escape in a class. A hyphen makes no range before a closing
bracket or a second hyphen. -/
def classRange? (o : Options) (s : List Char) : Option (CharSet × List Char) := do
  let (first, rest) ← classItem? o s
  let single := (itemSet? o first).map fun set => (set, o.skip rest)
  match o.skip rest with
  | '-' :: t =>
    if o.peek? t = some ']' ∨ o.peek? t = some '-' then single
    else
      let (last, rest) ← classItem? o (o.skip t)
      match first, last with
      | .char a _, .char b _ =>
        if a ≤ b && (itemSet? o first).isSome && (itemSet? o last).isSome then
          some (.between a b, rest)
        else none
      | _, _ => none
  | _ => single

/-- The set between `[:` and `:]` at the start of a text, and whether a caret asks for everything
else. -/
def namedSet? (s : List Char) : Option (Bool × CharSet × List Char) := do
  let behind ← startsWith? "[:".toList s
  let (negated, name) := match behind with
    | '^' :: t => (true, t)
    | t => (false, t)
  let (name, rest) ← cut? ":]".toList name
  return (negated, ← CharSet.named? (String.ofList name), rest)

/-- The hyphens at the start of a class. -/
def leadingHyphens (o : Options) (items : Items) (s : List Char) : Items × List Char :=
  match _h : o.skip s with
  | '-' :: t => leadingHyphens o (items.add (.one '-') 0) t
  | t => (items, t)
termination_by s.length
decreasing_by exact Options.length_of_skip _h

/-- The start of a class behind its bracket: the caret, and hyphens or else a closing bracket, which
are characters there. -/
def openClass? (o : Options) (s : List Char) : Option (Bool × Items × List Char) :=
  let (negated, t) := match o.skip s with
    | '^' :: t => (true, t)
    | t => (false, t)
  let (items, rest) := match leadingHyphens o {} t with
    | (⟨_, 0, _⟩, ']' :: rest) => (Items.add {} (.one ']') 0, rest)
    | start => start
  if items.count = 0 || hasItems o then some (negated, items, rest) else none

/-- The rest of a class behind its first items: `left` is what stands before the last operation,
`items` what has been read since. -/
def classRest? (o : Options) (fuel : Nat) (left : Option (Class × SetOperation)) (items : Items)
    (s : List Char) : Option (Class × List Char) :=
  match fuel with
  | 0 => none
  | fuel + 1 =>
    let next (op : SetOperation) (rest : List Char) :=
      classRest? o fuel (some (joinParts o left items, op)) {} rest
    match o.skip s with
    | [] => none
    | ']' :: rest => some (joinParts o left items, rest)
    | '&' :: '&' :: rest => next .both rest
    | '-' :: '-' :: rest => next .without rest
    | '~' :: '~' :: rest => next .either rest
    | '[' :: t =>
      match namedSet? ('[' :: t) with
      | some (negated, set, rest) =>
        match itemSet? o (.set set), close? o negated ⟨set, 0⟩ with
        | some _, some c => classRest? o fuel left (items.add c.set 0) rest
        | _, _ => none
      | none =>
        match openClass? o t with
        | none => none
        | some (negated, start, t) =>
          match classRest? o fuel none start t with
          | none => none
          | some (inner, rest) =>
            match close? o negated inner with
            | some c => classRest? o fuel left (items.add c.set c.depth) rest
            | none => none
    | t =>
      match classRange? o t with
      | some (set, rest) => classRest? o fuel left (items.add set 0) rest
      | none => none

/-- The class behind an opening bracket. -/
def class? (o : Options) (s : List Char) : Option (Class × List Char) := do
  let (negated, start, t) ← openClass? o s
  let (c, rest) ← classRest? o (s.length + 1) none start t
  return (← close? o negated c, rest)

end StaticSite.Pattern
