import StaticSite.Literal.Fault
import StaticSite.Number.Power

/-!
# Strings and template literals

A string stands between two equal quotes and does not run over the end of a line; a template
literal stands between backticks, may run over lines and holds no substitution. Both know the same
escapes. `readText` reads either kind, the opening delimiter being taken off already.
-/

namespace StaticSite.Literal

open Text

/-- The value of a hexadecimal digit. -/
def hexValue? (c : Char) : Option Nat :=
  if c.isDigit then some (c.toNat - 48)
  else if 'a' ≤ c ∧ c ≤ 'f' then some (c.toNat - 87)
  else if 'A' ≤ c ∧ c ≤ 'F' then some (c.toNat - 55)
  else none

/-- The number that hexadecimal digits write; `none` when there is another character. -/
def hexNumber? (digits : List Char) : Option Nat :=
  digits.foldlM (fun n c => (hexValue? c).map (16 * n + ·)) 0

/-- The number between the braces of an escape: hexadecimal digits, at least one, with or without a
plus sign in front, and below `2 ^ 32`. -/
def bracedNumber? (s : List Char) : Option Nat :=
  let digits := match s with
    | '+' :: t => t
    | t => t
  if digits = [] then none else (hexNumber? digits).filter (· < Number.power 2 32)

/-- The character with a code, as a text; `rest` is what is unread behind the escape. -/
def charOf (code : Nat) (rest : List Char) : Except Stop (List Char × List Char) :=
  if code.isValidChar then .ok ([Char.ofNat code], rest) else .error ⟨.badCodePoint code, rest⟩

/-- The character that the first `count` characters, all hexadecimal digits, write. -/
def readHex (count : Nat) (s : List Char) : Except Stop (List Char × List Char) :=
  match hexNumber? (s.take count) with
  | some code => if count ≤ s.length then charOf code (s.drop count) else .error ⟨.badHex, s⟩
  | none => .error ⟨.badHex, s⟩

/-- What an escape stands for, read behind its backslash. A line feed stands for nothing, and a
character without a meaning of its own for itself. -/
def readEscape : List Char → Except Stop (List Char × List Char)
  | [] => .error ⟨.unterminatedEscape, []⟩
  | 'n' :: s => .ok (['\n'], s)
  | 't' :: s => .ok (['\t'], s)
  | 'r' :: s => .ok (['\r'], s)
  | 'b' :: s => .ok (['\x08'], s)
  | 'f' :: s => .ok (['\x0c'], s)
  | 'v' :: s => .ok (['\x0b'], s)
  | '0' :: s => .ok (['\x00'], s)
  | '\n' :: s => .ok ([], s)
  | 'x' :: s => readHex 2 s
  | 'u' :: '\x7b' :: s =>
    match cut? ['\x7d'] s with
    | none => .error ⟨.unterminatedUnicode, s⟩
    | some (digits, rest) =>
      match bracedNumber? digits with
      | some code => charOf code rest
      | none => .error ⟨.badUnicode, s⟩
  | 'u' :: s => readHex 4 s
  | c :: s => .ok ([c], s)

theorem rest_of_charOf {code : Nat} {rest out r : List Char}
    (h : charOf code rest = .ok (out, r)) : r = rest := by
  rw [charOf] at h
  split at h
  · cases h; rfl
  · simp at h

theorem length_of_readHex {count : Nat} {s out r : List Char}
    (h : readHex count s = .ok (out, r)) : r.length ≤ s.length := by
  rw [readHex] at h
  split at h
  · split at h
    · rw [rest_of_charOf h]; simp
    · simp at h
  · simp at h

theorem length_of_readEscape {s out r : List Char} (h : readEscape s = .ok (out, r)) :
    r.length < s.length := by
  unfold readEscape at h
  split at h
  case h_11 s =>
    split at h
    · simp at h
    · next digits rest hc =>
      have hr := length_of_cut? hc
      split at h
      · rw [rest_of_charOf h]
        simp only [List.length_cons] at hr ⊢
        omega
      · simp at h
  all_goals grind [→ length_of_readHex]

/-- What a text in a literal stands between. -/
inductive Delimiter where
  /-- a double quote -/
  | double
  /-- a single quote -/
  | single
  /-- a backtick, which makes the text a template literal -/
  | backtick
  deriving DecidableEq, Repr

namespace Delimiter

/-- The delimiter itself. -/
def char : Delimiter → Char
  | .double => '\x22'
  | .single => '\x27'
  | .backtick => '\x60'

/-- The delimiter that a character is. -/
def ofChar? (c : Char) : Option Delimiter :=
  if c = '\x22' then some .double
  else if c = '\x27' then some .single
  else if c = '\x60' then some .backtick
  else none

/-- The fault of a text that is never closed. -/
def unterminated : Delimiter → Fault
  | .backtick => .unterminatedTemplate
  | _ => .unterminatedString

end Delimiter

/-- A text up to its closing delimiter, and what follows that delimiter. -/
def readText (d : Delimiter) (s : List Char) : Except Stop (List Char × List Char) :=
  match s with
  | [] => .error ⟨d.unterminated, []⟩
  | c :: t =>
    if c = d.char then .ok ([], t)
    else if c = '\\' then
      match _h : readEscape t with
      | .error e => .error e
      | .ok (out, rest) =>
        match readText d rest with
        | .error e => .error e
        | .ok (more, r) => .ok (out ++ more, r)
    else if c = '\n' ∧ d ≠ .backtick then .error ⟨.unterminatedString, t⟩
    else if c = '$' ∧ d = .backtick ∧ t.head? = some '\x7b' then .error ⟨.substitution, c :: t⟩
    else
      match readText d t with
      | .error e => .error e
      | .ok (more, r) => .ok (c :: more, r)
termination_by s.length
decreasing_by
  · have := length_of_readEscape _h
    simp only [List.length_cons]
    omega
  · simp

theorem length_of_readText {d : Delimiter} {s out r : List Char}
    (h : readText d s = .ok (out, r)) : r.length < s.length := by
  fun_induction readText d s generalizing out with
  | case1 => simp at h
  | case2 => cases h; simp
  | case3 => simp at h
  | case4 => simp at h
  | case5 t esc rest he more r' hr _ ih =>
    cases h
    have h₁ := ih hr
    have h₂ := length_of_readEscape he
    simp only [List.length_cons]
    omega
  | case6 => simp at h
  | case7 => simp at h
  | case8 => simp at h
  | case9 c t _ _ _ _ more r' hr ih =>
    cases h
    have h₁ := ih hr
    simp only [List.length_cons]
    omega

end StaticSite.Literal
