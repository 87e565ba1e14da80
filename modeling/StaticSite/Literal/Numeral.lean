import StaticSite.Literal.Quoted
import StaticSite.Number.Basic

/-!
# Numerals

A numeral is a sign or none, and then either a mark for base 16, 8 or 2 with its digits, or the
longest run of digits, points and exponents. Underscores may stand anywhere behind the first
character. The run is taken first and judged afterwards: it is an integer if it has no point and no
exponent and fits into 64 bits with sign, else a double if it is a decimal of a finite one.
-/

namespace StaticSite.Literal

open Text

/-- The sign in front of a numeral, `true` for a minus, and the text behind it. -/
def readSign : List Char → Bool × List Char
  | '-' :: s => (true, s)
  | '+' :: s => (false, s)
  | s => (false, s)

/-- The base that a mark names, and the text behind the mark. -/
def readBase : List Char → Option (Nat × List Char)
  | '0' :: 'x' :: s => some (16, s)
  | '0' :: 'X' :: s => some (16, s)
  | '0' :: 'o' :: s => some (8, s)
  | '0' :: 'O' :: s => some (8, s)
  | '0' :: 'b' :: s => some (2, s)
  | '0' :: 'B' :: s => some (2, s)
  | _ => none

/-- The value of a digit in a base of at most 16. -/
def digitIn? (base : Nat) (c : Char) : Option Nat := (hexValue? c).filter (· < base)

/-- The number that digits of a base write, if there is at least one. -/
def natIn? (base : Nat) (digits : List Char) : Option Nat :=
  if digits = [] then none
  else digits.foldlM (fun n c => (digitIn? base c).map (base * n + ·)) 0

/-- A text without its underscores. -/
def dropUnderscores (s : List Char) : List Char := s.filter (· ≠ '_')

/-- An integer with a sign, if its size fits into 63 bits. -/
def signedInt? (negative : Bool) (size : Nat) : Option Int :=
  if size ≤ Number.greatestInt then some (if negative then -(size : Int) else size) else none

/-- Splits off the longest run of digits, underscores, points and exponent letters; a sign belongs
to it right behind an exponent letter. `before` is the last character of the run so far. -/
def decimalRun (before : Option Char) : List Char → List Char × List Char
  | [] => ([], [])
  | c :: s =>
    let signed := before = some 'e' ∨ before = some 'E'
    if c.isDigit ∨ c = '_' ∨ c = '.' ∨ c = 'e' ∨ c = 'E' ∨ ((c = '+' ∨ c = '-') ∧ signed) then
      let (run, rest) := decimalRun (some c) s
      (c :: run, rest)
    else ([], c :: s)

/-- The exponent behind the digits of a decimal: nothing, or a letter, a sign or none, and at
least one digit. -/
def exponent? : List Char → Option Int
  | [] => some 0
  | c :: s =>
    if c = 'e' ∨ c = 'E' then
      let (negative, digits) := readSign s
      (natIn? 10 digits).map fun n => if negative then -(n : Int) else n
    else none

/-- The digits and the exponent of ten that a decimal stands for: digits with at most one point
among them, at least one digit, and an exponent or none. -/
def decimal? (s : List Char) : Option (Nat × Int) :=
  let whole := s.takeWhile Char.isDigit
  let (places, tail) := match s.dropWhile Char.isDigit with
    | '.' :: t => (t.takeWhile Char.isDigit, t.dropWhile Char.isDigit)
    | t => ([], t)
  match natIn? 10 (whole ++ places), exponent? tail with
  | some digits, some e => some (digits, e - places.length)
  | _, _ => none

/-- The number that a run stands for. -/
def runValue? (negative : Bool) (run : List Char) : Option Number :=
  let text := dropUnderscores run
  let isFloat := text.any fun c => c = '.' ∨ c = 'e' ∨ c = 'E'
  let integer := if isFloat then none else (natIn? 10 text).bind (signedInt? negative)
  match integer with
  | some i => some (.int i)
  | none => (decimal? text).bind fun (digits, e) => (Binary64.ofDecimal? negative digits e).map .double

/-- A number and the text behind it. -/
def readNumber (s : List Char) : Except Stop (Number × List Char) :=
  let (negative, unsigned) := readSign s
  match readBase unsigned with
  | some (base, t) =>
    let belongs := fun c => (digitIn? base c).isSome || c = '_'
    match (natIn? base (dropUnderscores (t.takeWhile belongs))).bind (signedInt? negative) with
    | some i => .ok (.int i, t.dropWhile belongs)
    | none => .error ⟨.badInteger, s⟩
  | none =>
    let (run, rest) := decimalRun none unsigned
    match runValue? negative run with
    | some n => .ok (n, rest)
    | none => .error ⟨.badNumber (s.take (s.length - rest.length)), s⟩

/-! ## What is left is shorter -/

theorem length_of_readSign (s : List Char) : (readSign s).2.length ≤ s.length := by
  unfold readSign
  split <;> simp

theorem decimalRun_append (before : Option Char) (s : List Char) :
    (decimalRun before s).1 ++ (decimalRun before s).2 = s := by
  induction s generalizing before with
  | nil => rfl
  | cons c s ih =>
    rw [decimalRun]
    dsimp only
    split
    · simp [ih]
    · simp

theorem runValue?_nil (negative : Bool) : runValue? negative [] = none := rfl

theorem length_of_readBase {s t : List Char} {base : Nat} (h : readBase s = some (base, t)) :
    t.length < s.length := by
  unfold readBase at h
  split at h
  case h_7 => cases h
  all_goals
    cases h
    simp only [List.length_cons]
    omega

theorem length_of_readNumber {s r : List Char} {n : Number} (h : readNumber s = .ok (n, r)) :
    r.length < s.length := by
  have hs := length_of_readSign s
  rw [readNumber] at h
  dsimp only at h
  split at h
  · next base t hb =>
    have ht := length_of_readBase hb
    split at h
    · cases h
      have := (List.dropWhile_suffix (l := t) fun c => (digitIn? base c).isSome || c = '_').length_le
      omega
    · simp at h
  · split at h
    · next hv =>
      cases h
      have ha := decimalRun_append none (readSign s).2
      have hl := congrArg List.length ha
      cases hr : (decimalRun none (readSign s).2).1 with
      | nil => simp [hr, runValue?_nil] at hv
      | cons c run =>
        simp only [hr, List.cons_append, List.length_cons, List.length_append] at hl
        omega
    · simp at h

end StaticSite.Literal
