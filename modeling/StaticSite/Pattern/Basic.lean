import StaticSite.Pattern.CharSet

/-!
# Patterns

A pattern describes texts; a text *has* a pattern when some stretch of it is described. Patterns
select the asset files that may be used as style sheets, so only this question matters and not which
stretch it is: lazy and greedy repetition are the same here, and what a group has matched is not
remembered.

A `Spot` is a place in a text, told by the character before it and the text behind it. `ends` lists
the spots at which a stretch that starts at a given spot and fits the pattern may end.
-/

namespace StaticSite

open Text

/-- What a place is to the words around it. -/
inductive WordEdge where
  /-- the start or the end of a word -/
  | either
  /-- neither the start nor the end of a word -/
  | neither
  /-- the start of a word -/
  | start
  /-- the end of a word -/
  | stop
  /-- there is no word character before it -/
  | startHalf
  /-- there is no word character behind it -/
  | stopHalf
  deriving DecidableEq

/-- A condition on a place in a text. -/
inductive Edge where
  /-- the start of the text -/
  | textStart
  /-- the end of the text -/
  | textEnd
  /-- the start of a line; `returns` tells that carriage returns end lines too -/
  | lineStart (returns : Bool)
  /-- the end of a line -/
  | lineEnd (returns : Bool)
  /-- a place among words; `ascii` tells that only ASCII makes words -/
  | word (kind : WordEdge) (ascii : Bool)
  deriving DecidableEq

/-- A pattern. -/
inductive Pattern where
  /-- the empty text -/
  | empty
  /-- one character of a set -/
  | char (set : CharSet)
  /-- the empty text at a place of some kind -/
  | edge (kind : Edge)
  /-- one pattern behind the other -/
  | seq (p q : Pattern)
  /-- one pattern or the other -/
  | alt (p q : Pattern)
  /-- a pattern in a numbered group -/
  | group (p : Pattern)
  /-- a pattern several times over, at least and at most so often -/
  | times (p : Pattern) (least : Nat) (most? : Option Nat)

namespace Pattern

/-- A place in a text. -/
structure Spot where
  /-- the character before it -/
  before? : Option Char
  /-- the text behind it -/
  rest : List Char

/-- Whether a place with or without word characters on its two sides is of a kind. -/
def WordEdge.holds : WordEdge → (before behind : Bool) → Bool
  | .either, before, behind => before != behind
  | .neither, before, behind => before == behind
  | .start, before, behind => !before && behind
  | .stop, before, behind => before && !behind
  | .startHalf, before, _ => !before
  | .stopHalf, _, behind => !behind

/-- Whether a place is of a kind. Where carriage returns end lines, one that is followed by a line
feed ends a line together with it. -/
def Edge.holds (s : Spot) : Edge → Bool
  | .textStart => s.before?.isNone
  | .textEnd => s.rest.isEmpty
  | .lineStart false => s.before?.isNone || s.before? == some '\n'
  | .lineEnd false => s.rest.isEmpty || s.rest.head? == some '\n'
  | .lineStart true =>
    s.before?.isNone || s.before? == some '\n' ||
      (s.before? == some '\r' && s.rest.head? != some '\n')
  | .lineEnd true =>
    s.rest.isEmpty || s.rest.head? == some '\r' ||
      (s.rest.head? == some '\n' && s.before? != some '\r')
  | .word kind true => WordEdge.holds kind (s.before?.any CharSet.asciiWord.has)
    (s.rest.head?.any CharSet.asciiWord.has)
  | .word kind false => WordEdge.holds kind (s.before?.any isWord) (s.rest.head?.any isWord)

/-- Spots of one text, each once. -/
def merge (spots more : List Spot) : List Spot :=
  more.foldl
    (fun spots s => if spots.any (·.rest.length == s.rest.length) then spots else s :: spots)
    spots

/-- The spots that are reached by exactly `n` steps. -/
def exactly (step : Spot → List Spot) : Nat → List Spot → List Spot
  | 0, spots => spots
  | n + 1, spots => exactly step n (merge [] (spots.flatMap step))

/-- The spots that are reached by at most `n` steps. -/
def atMost (step : Spot → List Spot) : Nat → List Spot → List Spot
  | 0, spots => spots
  | n + 1, spots =>
    let more := merge spots (spots.flatMap step)
    if more.length = spots.length then spots else atMost step n more

/-- The spots at which a stretch that fits the pattern may end. No repetition needs more rounds than
there are characters and one more: of so many rounds one takes no character, and it can be left out
or made again. -/
def ends : Pattern → Spot → List Spot
  | .empty, s => [s]
  | .char set, s =>
    match s.rest with
    | [] => []
    | c :: rest => if set.has c then [⟨some c, rest⟩] else []
  | .edge kind, s => if Edge.holds s kind then [s] else []
  | .seq p q, s => merge [] ((ends p s).flatMap (ends q))
  | .alt p q, s => merge (ends p s) (ends q s)
  | .group p, s => ends p s
  | .times p least most?, s =>
    let enough := s.rest.length + 1
    let more := match most? with
      | some most => min (most - least) enough
      | none => enough
    atMost (ends p) more (exactly (ends p) (min least enough) [s])

/-- Whether a stretch that fits the pattern starts at a spot or behind it. -/
def foundFrom (p : Pattern) (before? : Option Char) (s : List Char) : Bool :=
  if !(p.ends ⟨before?, s⟩).isEmpty then true
  else match s with
    | [] => false
    | c :: t => foundFrom p (some c) t

/-- Whether a text has the pattern. -/
def isIn (p : Pattern) (text : String) : Bool := foundFrom p none text.toList

end Pattern

end StaticSite
