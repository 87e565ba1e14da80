import StaticSite.Literal.Numeral
import StaticSite.Pattern.Class
import StaticSite.Pattern.Size
import StaticSite.Text.Letter

/-!
# Reading patterns

Patterns are written in the usual notation: alternatives, groups, character classes with set
operations, escapes, repetition and inline options. Back references and looking around are not part
of it. `Pattern.parse?` answers `none` for a text that is no pattern.

Which letters belong together is only known for ASCII. So a character under the options for both
cases and for Unicode is refused. Without the Unicode option a pattern must not describe a part of a
character: the dot and bytes beyond ASCII are refused there.

Three bounds hold for a whole pattern: the names of its groups differ, it does not nest too deep, and
its automaton does not grow too large.

A pattern is read from left to right; every reader takes at least one character before it calls
itself again, so the length of the text bounds their depth.
-/

namespace StaticSite.Pattern

open Text Literal

/-- A part of a pattern that has been read. -/
structure Piece where
  /-- what it describes -/
  pattern : Pattern
  /-- how deep it nests -/
  depth : Nat := 0
  /-- the names of its groups -/
  names : List (List Char) := []

/-- The deepest nesting among some pieces. -/
def deepest (pieces : List Piece) : Nat := pieces.foldl (fun n p => max n p.depth) 0

/-- The names of the groups of some pieces. -/
def allNames (pieces : List Piece) : List (List Char) := pieces.flatMap (·.names)

/-- One pattern behind the other. -/
def chain : List Pattern → Pattern
  | [] => .empty
  | [p] => p
  | p :: rest => .seq p (chain rest)

/-- One pattern or the other. -/
def choice : List Pattern → Pattern
  | [] => .empty
  | [p] => p
  | p :: rest => .alt p (choice rest)

/-- The items of a sequence as one piece, the last of them first. An item without a piece is a switch
of options. -/
def ofItems : List (Option Piece) → Piece
  | [some p] => p
  | items =>
    let pieces := items.reverse.filterMap id
    ⟨chain (pieces.map (·.pattern)), if items.length ≤ 1 then 0 else 1 + deepest pieces,
      allNames pieces⟩

/-- Alternatives as one piece. -/
def ofBranches : List Piece → Piece
  | [p] => p
  | pieces => ⟨choice (pieces.map (·.pattern)), 1 + deepest pieces, allNames pieces⟩

/-! ## Single signs -/

/-- A pattern for one character. -/
def literal? (o : Options) (c : Char) (isByte : Bool) : Option Pattern :=
  if o.unicode then if o.anyCase then none else some (.char (.one c))
  else if isByte && 128 ≤ c.toNat then none
  else some (.char (cased o (.one c)))

/-- The characters that the dot stands for. -/
def dot? (o : Options) : Option CharSet :=
  if !o.unicode then none
  else if o.dotAll then some CharSet.empty.complement
  else if o.returns then some ((CharSet.one '\n').union (.one '\r')).complement
  else some (CharSet.one '\n').complement

/-- A single character, escape or place. -/
def sign? (o : Options) : List Char → Option (Pattern × List Char)
  | [] => none
  | '.' :: s => (dot? o).map fun set => (.char set, s)
  | '^' :: s => some (.edge (if o.lines then .lineStart o.returns else .textStart), s)
  | '$' :: s => some (.edge (if o.lines then .lineEnd o.returns else .textEnd), s)
  | '\\' :: s =>
    match escape? o s with
    | some (.char c isByte, rest) => (literal? o c isByte).map (·, rest)
    | some (.set set, rest) => some (.char set, rest)
    | some (.edge kind, rest) => some (.edge kind, rest)
    | none => none
  | c :: s => (literal? o c false).map (·, s)

/-! ## Repetition -/

/-- A number below two to the power of 32, with white space around it. -/
def count? (o : Options) (s : List Char) : Option (Nat × List Char) := do
  let (digits, rest) := o.spanDigits (trimStart s)
  let n ← if digits = [] then none else natIn? 10 digits
  if n < Number.power 2 32 then return (n, trimStart rest) else none

/-- The limits of a repetition behind an opening brace. -/
def limits? (o : Options) (s : List Char) : Option (Nat × Option Nat × List Char) := do
  let (least, rest) ← count? o (o.skip s)
  match rest with
  | '\x7d' :: rest => return (least, some least, rest)
  | ',' :: t =>
    match o.skip t with
    | '\x7d' :: rest => return (least, none, rest)
    | t =>
      let (most, rest) ← count? o t
      match rest with
      | '\x7d' :: rest => if least ≤ most then return (least, some most, rest) else none
      | _ => none
  | _ => none

/-- The text behind a mark that makes a repetition lazy. -/
def dropLazy : List Char → List Char
  | '?' :: s => s
  | s => s

/-- The limits of the repetition at the start of a text. -/
def repetition? (o : Options) : List Char → Option (Nat × Option Nat × List Char)
  | '*' :: s => some (0, none, dropLazy s)
  | '+' :: s => some (1, none, dropLazy s)
  | '?' :: s => some (0, some 1, dropLazy s)
  | '\x7b' :: s =>
    (limits? o s).map fun (least, most?, rest) => (least, most?, dropLazy (o.skip rest))
  | _ => none

/-- Whether a sign repeats what stands before it. -/
def isRepetition (c : Char) : Bool := c = '*' || c = '+' || c = '?' || c = '\x7b'

/-- The items of a sequence with the last one repeated. A switch of options cannot be. -/
def repeatLast? (least : Nat) (most? : Option Nat) :
    List (Option Piece) → Option (List (Option Piece))
  | some p :: items => some (some ⟨.times p.pattern least most?, 1 + p.depth, p.names⟩ :: items)
  | _ => none

/-! ## Groups -/

/-- What the start of a group behind its opening parenthesis says. -/
inductive GroupStart where
  /-- a group with these options inside -/
  | group (o : Options) (rest : List Char)
  /-- a group that gets a number, and perhaps a name -/
  | numbered (name? : Option (List Char)) (rest : List Char)
  /-- options for the rest of the group around -/
  | switched (o : Options) (rest : List Char)

/-- Whether a text can name a group. -/
def isGroupName (s : List Char) : Bool :=
  match s with
  | [] => false
  | c :: t =>
    (c == '_' || isLetter c) &&
      t.all fun c => c == '_' || c == '.' || c == '[' || c == ']' || isLetter c || isNumber c

/-- The start of a group. -/
def groupStart? (o : Options) (s : List Char) : Option GroupStart :=
  match o.skip s with
  | '?' :: 'P' :: '<' :: t => named t
  | '?' :: '<' :: t => named t
  | '?' :: t =>
    let letters := t.takeWhile fun c => c ≠ ':' ∧ c ≠ ')'
    match o.switchAll? letters, t.drop letters.length with
    | some o, ':' :: rest => some (.group o rest)
    | some o, ')' :: rest => if letters = [] then none else some (.switched o rest)
    | _, _ => none
  | t => some (.numbered none t)
where
  /-- A group with a name. -/
  named (t : List Char) : Option GroupStart :=
    match cut? ['>'] t with
    | some (name, rest) => if isGroupName name then some (.numbered (some name) rest) else none
    | none => none

/-- A group around a piece. -/
def Piece.inGroup (p : Piece) : Piece := ⟨p.pattern, 1 + p.depth, p.names⟩

/-- A group with a number around a piece. -/
def Piece.inNumbered (p : Piece) (name? : Option (List Char)) : Piece :=
  ⟨.group p.pattern, 1 + p.depth, name?.toList ++ p.names⟩

mutual

/-- Patterns between vertical bars, up to the end of a group; `branches` are those read already, the
last of them first. -/
def alternatives? (fuel : Nat) (o : Options) (branches : List Piece) (s : List Char) :
    Option (Piece × List Char) :=
  match fuel with
  | 0 => none
  | fuel + 1 =>
    match sequence? fuel o [] s with
    | some (p, o, '|' :: t) => alternatives? fuel o (p :: branches) t
    | some (p, _, rest) => some (ofBranches (p :: branches).reverse, rest)
    | none => none

/-- Patterns one behind the other, up to a vertical bar or the end of a group; `items` are those read
already, the last of them first. -/
def sequence? (fuel : Nat) (o : Options) (items : List (Option Piece)) (s : List Char) :
    Option (Piece × Options × List Char) :=
  match fuel with
  | 0 => none
  | fuel + 1 =>
    match o.skip s with
    | [] => some (ofItems items, o, [])
    | '|' :: t => some (ofItems items, o, '|' :: t)
    | ')' :: t => some (ofItems items, o, ')' :: t)
    | '(' :: t =>
      match groupStart? o t with
      | none => none
      | some (.switched o rest) => sequence? fuel o (none :: items) rest
      | some (.group inner rest) =>
        match alternatives? fuel inner [] rest with
        | some (p, ')' :: rest) => sequence? fuel o (some p.inGroup :: items) rest
        | _ => none
      | some (.numbered name? rest) =>
        match alternatives? fuel o [] rest with
        | some (p, ')' :: rest) => sequence? fuel o (some (p.inNumbered name?) :: items) rest
        | _ => none
    | '[' :: t =>
      match class? o t with
      | some (c, rest) => sequence? fuel o (some ⟨.char c.set, c.depth, []⟩ :: items) rest
      | none => none
    | c :: t =>
      if isRepetition c then
        match repetition? o (c :: t) with
        | some (least, most?, rest) =>
          match repeatLast? least most? items with
          | some items => sequence? fuel o items rest
          | none => none
        | none => none
      else
        match sign? o (c :: t) with
        | some (p, rest) => sequence? fuel o (some ⟨p, 0, []⟩ :: items) rest
        | none => none

end

/-- How deep a pattern may nest. -/
def greatestDepth : Nat := 250

/-- The greatest size of a pattern: ten mebibytes. -/
def greatestSize : Nat := 10 * 1024 * 1024

/-- The pattern that a text writes. -/
def parse? (source : String) : Option Pattern :=
  let s := source.toList
  match alternatives? (2 * s.length + 2) {} [] s with
  | some (p, []) =>
    if p.depth ≤ greatestDepth && p.names.Nodup && p.pattern.size ≤ greatestSize then
      some p.pattern
    else none
  | _ => none

end StaticSite.Pattern
