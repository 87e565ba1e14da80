import StaticSite.Toml.Quoted

/-!
# Tokens of TOML

A document is a row of tokens: words, quoted texts, marks and line ends. Blanks and comments only
keep tokens apart. A word is any run of characters that a key, a number or a truth value can have;
which of these it is depends on where it stands.
-/

namespace StaticSite.Toml

/-- What a document is made of. -/
inductive Token where
  /-- a run of letters, digits, hyphens, underscores and plus signs -/
  | word (s : List Char)
  /-- a text quoted on one line -/
  | line (s : List Char)
  /-- a text quoted over several lines -/
  | block (s : List Char)
  /-- a character with a meaning of its own -/
  | mark (c : Char)
  /-- the end of a line -/
  | lineEnd
  deriving DecidableEq, Repr

namespace Token

/-- A character of a word. -/
def isWordChar (c : Char) : Bool := c.isAlphanum || c = '-' || c = '_' || c = '+'

/-- A character with a meaning of its own. -/
def isMark (c : Char) : Bool := "[]\x7b\x7d=,.".toList.contains c

/-- The quoted text at the start of a text. -/
def quoted? : List Char → Option (Token × List Char)
  | '"' :: '"' :: '"' :: s =>
    (readBlock? false (dropLineEnd s)).map fun (text, rest) => (.block text, rest)
  | '"' :: s => (readLine? s).map fun (text, rest) => (.line text, rest)
  | '\x27' :: '\x27' :: '\x27' :: s =>
    (readRawBlock? (dropLineEnd s)).map fun (text, rest) => (.block text, rest)
  | '\x27' :: s => (readRawLine? s).map fun (text, rest) => (.line text, rest)
  | _ => none

theorem length_of_quoted? {s rest : List Char} {t : Token} (h : quoted? s = some (t, rest)) :
    rest.length < s.length := by
  unfold quoted? at h
  split at h
  all_goals
    simp only [Option.map_eq_some_iff, Prod.exists, Prod.mk.injEq, reduceCtorEq] at h
  · next s =>
    obtain ⟨_, _, h, -, rfl⟩ := h
    have := length_of_readBlock? h
    have := length_dropLineEnd s
    simp only [List.length_cons]; omega
  · obtain ⟨_, _, h, -, rfl⟩ := h
    have := length_of_readLine? h
    simp only [List.length_cons]; omega
  · next s =>
    obtain ⟨_, _, h, -, rfl⟩ := h
    have := length_of_readRawBlock? h
    have := length_dropLineEnd s
    simp only [List.length_cons]; omega
  · obtain ⟨_, _, h, -, rfl⟩ := h
    have := length_of_readRawLine? h
    simp only [List.length_cons]; omega

theorem length_dropWhile_le (p : Char → Bool) (s : List Char) :
    (s.dropWhile p).length ≤ s.length := (List.dropWhile_suffix p).length_le

/-- The first token of a text, if it does not start with a blank or a comment, and what follows. -/
def next? : List Char → Option (Token × List Char)
  | [] => none
  | c :: s =>
    if isWordChar c then some (.word (c :: s.takeWhile isWordChar), s.dropWhile isWordChar)
    else if isMark c then some (.mark c, s)
    else match lineEnd? (c :: s) with
      | some rest => some (.lineEnd, rest)
      | none => quoted? (c :: s)

theorem length_of_next? {s rest : List Char} {t : Token} (h : next? s = some (t, rest)) :
    rest.length < s.length := by
  unfold next? at h
  split at h
  · simp at h
  · next c s =>
    split at h
    · cases h
      have := length_dropWhile_le isWordChar s
      simp only [List.length_cons]; omega
    · split at h
      · cases h; simp
      · split at h
        · next r hr =>
          cases h
          unfold lineEnd? at hr
          grind
        · exact length_of_quoted? h

/-- The tokens of a text; `none` if some part of it is no token. -/
def ofText? (s : List Char) : Option (List Token) :=
  match s with
  | [] => some []
  | c :: t =>
    have : (t.dropWhile isPlain).length ≤ t.length := length_dropWhile_le _ _
    if isBlank c then ofText? t
    else if c = '#' then ofText? (t.dropWhile isPlain)
    else
      match h : next? (c :: t) with
      | none => none
      | some (token, rest) =>
        have := length_of_next? h
        (ofText? rest).map (token :: ·)
termination_by s.length
decreasing_by all_goals (simp only [List.length_cons] at *; omega)

end Token

end StaticSite.Toml
