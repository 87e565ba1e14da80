import StaticSite.Literal.Fault
import StaticSite.Text.Blank

/-!
# White space and comments

Between two tokens of a literal may stand white space, line comments and block comments. A line
comment ends before the next line feed. The end of a block comment is looked for from the asterisk
that opens it, so that the asterisk of `/*/` serves twice.
-/

namespace StaticSite.Literal

open Text

/-- The text from the first character on that is neither blank nor in a comment. -/
def skipTrivia (s : List Char) : Except Stop (List Char) :=
  match _h : trimStart s with
  | '/' :: '/' :: t => skipTrivia (t.dropWhile (· ≠ '\n'))
  | '/' :: '*' :: t =>
    match _hc : cut? ['*', '/'] ('*' :: t) with
    | some (_, rest) => skipTrivia rest
    | none => .error ⟨.unterminatedComment, '/' :: '*' :: t⟩
  | t => .ok t
termination_by s.length
decreasing_by
  · have h₁ := trimStart_length_le s
    have h₂ := (List.dropWhile_suffix (l := t) (· ≠ '\n')).length_le
    simp only [_h, List.length_cons] at h₁
    omega
  · have h₁ := trimStart_length_le s
    have h₂ := length_of_cut? _hc
    simp only [_h, List.length_cons] at h₁ h₂
    omega

theorem length_of_skipTrivia {s t : List Char} (h : skipTrivia s = .ok t) :
    t.length ≤ s.length := by
  fun_induction skipTrivia s with
  | case1 s u hs ih =>
    have h₁ := trimStart_length_le s
    have h₂ := (List.dropWhile_suffix (l := u) (· ≠ '\n')).length_le
    have h₃ := ih h
    simp only [hs, List.length_cons] at h₁
    omega
  | case2 s u hs before rest hc ih =>
    have h₁ := trimStart_length_le s
    have h₂ := length_of_cut? hc
    have h₃ := ih h
    simp only [hs, List.length_cons] at h₁ h₂
    omega
  | case3 => simp at h
  | case4 s =>
    cases h
    exact trimStart_length_le s

end StaticSite.Literal
