import StaticSite.Pattern.CharSet
import StaticSite.Text.Blank

/-!
# Options of patterns

A pattern switches options on and off as it is read; they hold up to the end of the group around.
Most of them say what single signs stand for. The option for spaced patterns also changes how the
pattern is read, so the readers of patterns move on with `skip`.
-/

namespace StaticSite.Pattern

open Text

/-- The options of a pattern. -/
structure Options where
  /-- letters stand for both of their cases -/
  anyCase : Bool := false
  /-- the marks for start and end hold at every line -/
  lines : Bool := false
  /-- the dot stands for line ends too -/
  dotAll : Bool := false
  /-- white space and comments are not part of the pattern -/
  spaced : Bool := false
  /-- classes are those of Unicode, and else their ASCII parts -/
  unicode : Bool := true
  /-- carriage returns end lines too -/
  returns : Bool := false
  deriving DecidableEq

namespace Options

/-- Switches one option. The letter for lazy repetition changes nothing here. -/
def switch? (o : Options) (on : Bool) : Char → Option Options
  | 'i' => some { o with anyCase := on }
  | 'm' => some { o with lines := on }
  | 's' => some { o with dotAll := on }
  | 'x' => some { o with spaced := on }
  | 'u' => some { o with unicode := on }
  | 'R' => some { o with returns := on }
  | 'U' => some o
  | _ => none

/-- Switches the options of a list of letters, off from a minus sign on. -/
def switchFrom? (o : Options) (on : Bool) : List Char → Option Options
  | [] => some o
  | '-' :: letters => switchFrom? o false letters
  | c :: letters => (o.switch? on c).bind fun o => switchFrom? o on letters

/-- Switches the options of a list of letters. No letter and no minus sign may stand there twice,
and a minus sign not at the end. -/
def switchAll? (o : Options) (letters : List Char) : Option Options :=
  if letters.Nodup ∧ letters.getLast? ≠ some '-' then o.switchFrom? true letters else none

/-! ## White space in spaced patterns -/

/-- The text behind white space and comments; a comment runs from a number sign to the end of its
line. -/
def dropSpace (inComment : Bool) : List Char → List Char
  | [] => []
  | c :: s =>
    if inComment then dropSpace (c != '\n') s
    else if isBlank c then dropSpace false s
    else if c = '#' then dropSpace true s
    else c :: s

theorem length_dropSpace (inComment : Bool) (s : List Char) :
    (dropSpace inComment s).length ≤ s.length := by
  fun_induction dropSpace inComment s with
  | case1 => exact Nat.le_refl _
  | case2 _ _ ih => exact Nat.le_succ_of_le ih
  | case3 _ _ _ _ _ ih => exact Nat.le_succ_of_le ih
  | case4 _ _ _ _ ih => exact Nat.le_succ_of_le ih
  | case5 => exact Nat.le_refl _

/-- The text from its first character that is part of the pattern. -/
def skip (o : Options) (s : List Char) : List Char := if o.spaced then dropSpace false s else s

theorem length_skip (o : Options) (s : List Char) : (o.skip s).length ≤ s.length := by
  rw [skip]
  split
  · exact length_dropSpace false s
  · exact Nat.le_refl _

theorem length_of_skip {o : Options} {s t : List Char} {c : Char} (h : o.skip s = c :: t) :
    t.length < s.length := by
  have := o.length_skip s
  rw [h, List.length_cons] at this
  omega

/-- The characters up to a closing one, and the text behind that one. -/
def spanTo? (o : Options) (close : Char) (s : List Char) : Option (List Char × List Char) :=
  match _h : o.skip s with
  | [] => none
  | c :: t =>
    if c = close then some ([], t)
    else (spanTo? o close t).map fun (inside, rest) => (c :: inside, rest)
termination_by s.length
decreasing_by exact length_of_skip _h

/-- The decimal digits at the start of a text, and the text behind them. -/
def spanDigits (o : Options) (s : List Char) : List Char × List Char :=
  match s with
  | [] => ([], [])
  | c :: t =>
    if c.isDigit then
      let (digits, rest) := spanDigits o (o.skip t)
      (c :: digits, rest)
    else ([], c :: t)
termination_by s.length
decreasing_by exact Nat.lt_succ_of_le (o.length_skip _)

/-- The first character behind a sign in a class. White space is read over, and so is one number
sign; where nothing else follows, white space counts. -/
def peek? (o : Options) (s : List Char) : Option Char :=
  if o.spaced then
    let behind := match trimStart s with
      | '#' :: t => trimStart t
      | t => t
    behind.head?.or s.head?
  else s.head?

end Options

end StaticSite.Pattern
