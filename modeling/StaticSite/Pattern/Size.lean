import StaticSite.Pattern.Basic
import StaticSite.Number.Power

/-!
# The size of a pattern

A pattern is carried out by an automaton that reads bytes. How much memory the automaton takes is
counted here, since a pattern that would need too much of it is refused: every state takes 32 bytes,
and where there are several ways out of a state, each takes four or eight more.

A set of characters beyond ASCII becomes a tree of byte ranges. It has a path for each sequence of
ranges that spells a part of the set in UTF-8, and paths share the states of their common beginning.
-/

namespace StaticSite

namespace CharSet

/-- Cuts a range of code points into parts that are spelled by one range for each byte, where `n`
bytes follow the first one. -/
def cutEven : Nat → Nat → Nat → List (Nat × Nat)
  | 0, first, last => [(first, last)]
  | n + 1, first, last =>
    let unit := Number.power 64 (n + 1)
    if first / unit = last / unit then cutEven n first last
    else
      let low := (first + unit - 1) / unit
      let high := (last + 1) / unit
      (if first % unit = 0 then [] else cutEven n first (low * unit - 1)) ++
        (if low < high then [(low * unit, high * unit - 1)] else []) ++
        (if (last + 1) % unit = 0 then [] else cutEven n (high * unit) last)

/-- The byte ranges that spell a part of a set, where `n` bytes follow the first one and `lead` marks
that first one. -/
def bytesOf (lead : Nat) : Nat → Nat × Nat → List (Nat × Nat)
  | 0, (first, last) => [(lead + first, lead + last)]
  | n + 1, (first, last) =>
    bytesOf lead n (first / 64, last / 64) ++ [(0x80 + first % 64, 0x80 + last % 64)]

/-- The forms of UTF-8: the count of bytes behind the first one, the mark of that first one, and the
code points that have the form. -/
def forms : List (Nat × Nat × Nat × Nat) :=
  [(0, 0, 0, 0x7F), (1, 0xC0, 0x80, 0x7FF), (2, 0xE0, 0x800, 0xFFFF),
    (3, 0xF0, 0x10000, greatest)]

/-- The paths of a range. -/
def pathsOf (range : Nat × Nat) : List (List (Nat × Nat)) :=
  forms.flatMap fun (n, lead, least, most) =>
    let first := max range.1 least
    let last := min range.2 most
    if first ≤ last then (cutEven n first last).map (bytesOf lead n) else []

/-- How many states a path does not share with the path before it. -/
def newStates : List (Nat × Nat) → List (Nat × Nat) → Nat
  | a :: before, b :: path => if a = b then newStates before path else path.length + 1
  | _, path => path.length

/-- The memory of a tree, path by path. -/
def treeSize (before : List (Nat × Nat)) : List (List (Nat × Nat)) → Nat
  | [] => 0
  | path :: rest => 32 * newStates before path + 4 + treeSize path rest

/-- The memory that reading one character of a set takes. -/
def size (s : CharSet) : Nat :=
  match s.ranges with
  | [] => 32
  | [(first, last)] =>
    if first = last then 32 * (Char.ofNat first).utf8Size
    else if s.isAscii then 64
    else 64 + treeSize [] (pathsOf (first, last))
  | ranges =>
    if s.isAscii then 64 + 8 * ranges.length
    else 64 + treeSize [] (ranges.flatMap pathsOf)

end CharSet

namespace Pattern

/-- Whether a pattern only describes empty stretches. -/
def isSilent : Pattern → Bool
  | .empty => true
  | .char _ => false
  | .edge _ => true
  | .seq p q => p.isSilent && q.isSilent
  | .alt p q => p.isSilent && q.isSilent
  | .group p => p.isSilent
  | .times p _ most? => p.isSilent || most? == some 0

/-- The memory of a repetition of something that takes `once`. -/
def timesSize (once least : Nat) : Option Nat → Nat
  | none => max least 1 * once + 40
  | some most =>
    if least = most then if most = 0 then 32 else most * once
    else if least = 0 && most = 1 then 72 + once
    else (if least = 0 then 32 else least * once) + 32 + (most - least) * (40 + once)

/-- The memory of a pattern; `isBranch` tells that it is part of a choice. What only describes empty
stretches is repeated once at most. -/
def sizeAs (isBranch : Bool) : Pattern → Nat
  | .alt p q => (if isBranch then 0 else 64) + p.sizeAs true + q.sizeAs true
  | .empty => way + 32
  | .char set => way + set.size
  | .edge _ => way + 32
  | .seq p q => way + p.sizeAs false + q.sizeAs false
  | .group p => way + 64 + p.sizeAs false
  | .times p least most? =>
    way + if p.isSilent then timesSize (p.sizeAs false) (min least 1) (some (min (most?.getD 1) 1))
    else timesSize (p.sizeAs false) least most?
where
  /-- The way into a branch. -/
  way : Nat := if isBranch then 4 else 0

/-- The memory that the automaton of a pattern takes: what the pattern takes itself, and the states
that look for a first place, remember the whole stretch and end. -/
def size (p : Pattern) : Nat := p.sizeAs false + 200

end Pattern

end StaticSite
