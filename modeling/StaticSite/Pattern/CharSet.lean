import StaticSite.Text.Word

/-!
# Sets of characters

A set is a list of ranges of code points, in ascending order and with gaps between them, so that its
complement is found in one walk. The code points of surrogates are no characters and belong to no
set.

The sets of words, digits and white space come in two sizes: those of Unicode, and their ASCII parts
(`ascii` in their names).
-/

namespace StaticSite

open Text

/-- A set of characters. -/
structure CharSet where
  /-- the first and the last code point of each range -/
  ranges : List (Nat × Nat)
  deriving DecidableEq, Inhabited

namespace CharSet

/-- Whether a set has a character. -/
def has (s : CharSet) (c : Char) : Bool :=
  s.ranges.any fun (first, last) => first ≤ c.toNat && c.toNat ≤ last

/-- The greatest code point. -/
def greatest : Nat := 0x10FFFF

/-- The parts of a range below and above the surrogates. -/
def scalars (range : Nat × Nat) : List (Nat × Nat) :=
  [(range.1, min range.2 0xD7FF), (max range.1 0xE000, range.2)].filter fun r => r.1 ≤ r.2

/-- Joins a range with the ranges behind it, as long as they touch it. -/
def joinFrom (first last : Nat) : List (Nat × Nat) → List (Nat × Nat)
  | [] => [(first, last)]
  | (a, b) :: rest =>
    if a ≤ last + 1 then joinFrom first (max last b) rest else (first, last) :: joinFrom a b rest

/-- The set of all characters in some ranges, which may stand in any order. -/
def ofRanges (ranges : List (Nat × Nat)) : CharSet :=
  match (ranges.flatMap scalars).mergeSort fun r q => r.1 ≤ q.1 with
  | [] => ⟨[]⟩
  | (first, last) :: rest => ⟨joinFrom first last rest⟩

/-- The set of no character. -/
def empty : CharSet := ⟨[]⟩

/-- The set of one character. -/
def one (c : Char) : CharSet := ⟨[(c.toNat, c.toNat)]⟩

/-- The characters between two characters. -/
def between (first last : Char) : CharSet := ofRanges [(first.toNat, last.toNat)]

/-- The code points from `next` on that are in none of the ranges. -/
def gapsFrom (next : Nat) : List (Nat × Nat) → List (Nat × Nat)
  | [] => if next ≤ greatest then [(next, greatest)] else []
  | (first, last) :: rest =>
    (if next < first then [(next, first - 1)] else []) ++ gapsFrom (last + 1) rest

/-- All characters outside of a set. -/
def complement (s : CharSet) : CharSet := ⟨(gapsFrom 0 s.ranges).flatMap scalars⟩

/-- The characters of two sets. -/
def union (s t : CharSet) : CharSet := ofRanges (s.ranges ++ t.ranges)

/-- The common characters of two sets. -/
def inter (s t : CharSet) : CharSet := (s.complement.union t.complement).complement

/-- The characters of the first set alone. -/
def without (s t : CharSet) : CharSet := s.inter t.complement

/-- Whether all characters of a set are ASCII. -/
def isAscii (s : CharSet) : Bool := s.ranges.all fun (_, last) => last < 128

/-! ## Both cases of letters -/

/-- The letters of ASCII in a range, in their other case. -/
def otherCase (range : Nat × Nat) : List (Nat × Nat) :=
  let (first, last) := range
  [(max first 0x41 + 32, min last 0x5A + 32), (max first 0x61 - 32, min last 0x7A - 32)].filter
    fun r => r.1 ≤ r.2

/-- A set with the other cases of its ASCII letters. -/
def foldAscii (s : CharSet) : CharSet := ofRanges (s.ranges ++ s.ranges.flatMap otherCase)

/-! ## Named sets -/

/-- The decimal digits of ASCII. -/
def asciiDigit : CharSet := ⟨[(0x30, 0x39)]⟩

/-- The word characters of ASCII. -/
def asciiWord : CharSet := ⟨[(0x30, 0x39), (0x41, 0x5A), (0x5F, 0x5F), (0x61, 0x7A)]⟩

/-- The white space of ASCII. -/
def asciiBlank : CharSet := ⟨[(0x9, 0xD), (0x20, 0x20)]⟩

/-- Decimal digits. -/
def digit : CharSet := ⟨asciiDigit.ranges ++ digitRanges⟩

/-- Letters, marks, digits and connectors. -/
def word : CharSet := ⟨asciiWord.ranges ++ wordRanges⟩

/-- White space. -/
def blank : CharSet :=
  ⟨[(0x9, 0xD), (0x20, 0x20), (0x85, 0x85), (0xA0, 0xA0), (0x1680, 0x1680), (0x2000, 0x200A),
    (0x2028, 0x2029), (0x202F, 0x202F), (0x205F, 0x205F), (0x3000, 0x3000)]⟩

/-- The set that a name between brackets and colons stands for. All of these are ASCII. -/
def named? : String → Option CharSet
  | "alnum" => some ⟨[(0x30, 0x39), (0x41, 0x5A), (0x61, 0x7A)]⟩
  | "alpha" => some ⟨[(0x41, 0x5A), (0x61, 0x7A)]⟩
  | "ascii" => some ⟨[(0, 0x7F)]⟩
  | "blank" => some ⟨[(0x9, 0x9), (0x20, 0x20)]⟩
  | "cntrl" => some ⟨[(0, 0x1F), (0x7F, 0x7F)]⟩
  | "digit" => some asciiDigit
  | "graph" => some ⟨[(0x21, 0x7E)]⟩
  | "lower" => some ⟨[(0x61, 0x7A)]⟩
  | "print" => some ⟨[(0x20, 0x7E)]⟩
  | "punct" => some ⟨[(0x21, 0x2F), (0x3A, 0x40), (0x5B, 0x60), (0x7B, 0x7E)]⟩
  | "space" => some asciiBlank
  | "upper" => some ⟨[(0x41, 0x5A)]⟩
  | "word" => some asciiWord
  | "xdigit" => some ⟨[(0x30, 0x39), (0x41, 0x46), (0x61, 0x66)]⟩
  | _ => none

end CharSet

end StaticSite
