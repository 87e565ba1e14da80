import StaticSite.Literal.Quoted

/-!
# Quoted texts of TOML

There are four ways to quote a text: between quotes, where escapes are known, or between
apostrophes, where they are not; and each of them on one line or, with three delimiters instead of
one, over several. The readers here start behind the opening delimiter and hand on what follows the
closing one.
-/

namespace StaticSite.Toml

open Literal

/-- A character that may stand in a comment, and for itself in a quoted text: no control character
but the tab. -/
def isPlain (c : Char) : Bool := c = '\t' || (' ' ≤ c && c ≠ '\x7f')

/-- A blank on a line. -/
def isBlank (c : Char) : Bool := c = ' ' || c = '\t'

/-- What follows a line end. -/
def lineEnd? : List Char → Option (List Char)
  | '\n' :: s => some s
  | '\r' :: '\n' :: s => some s
  | _ => none

/-- The character that hexadecimal digits write. -/
def charOfHex? (digits : List Char) : Option Char :=
  (hexNumber? digits).bind fun code => if code.isValidChar then some (Char.ofNat code) else none

/-- Puts a character in front of a text that was read. -/
def consText (c : Char) : Option (List Char × List Char) → Option (List Char × List Char)
  | some (text, rest) => some (c :: text, rest)
  | none => none

/-- Puts the character that hexadecimal digits write in front of a text that was read. -/
def consHex (digits : List Char) (taken : Option (List Char × List Char)) :
    Option (List Char × List Char) :=
  match charOfHex? digits with
  | some c => consText c taken
  | none => none

/-- A text between quotes, on one line. -/
def readLine? : List Char → Option (List Char × List Char)
  | [] => none
  | '"' :: s => some ([], s)
  | '\\' :: 'b' :: s => consText '\x08' (readLine? s)
  | '\\' :: 't' :: s => consText '\t' (readLine? s)
  | '\\' :: 'n' :: s => consText '\n' (readLine? s)
  | '\\' :: 'f' :: s => consText '\x0c' (readLine? s)
  | '\\' :: 'r' :: s => consText '\r' (readLine? s)
  | '\\' :: '"' :: s => consText '"' (readLine? s)
  | '\\' :: '\\' :: s => consText '\\' (readLine? s)
  | '\\' :: 'u' :: a :: b :: c :: d :: s =>
    consHex [a, b, c, d] (readLine? s)
  | '\\' :: 'U' :: a :: b :: c :: d :: e :: f :: g :: h :: s =>
    consHex [a, b, c, d, e, f, g, h] (readLine? s)
  | '\\' :: _ => none
  | c :: s => if isPlain c then consText c (readLine? s) else none

/-- A text between apostrophes, on one line. -/
def readRawLine? : List Char → Option (List Char × List Char)
  | [] => none
  | '\x27' :: s => some ([], s)
  | c :: s => if isPlain c then consText c (readRawLine? s) else none

/-- The end of a text over several lines, behind three delimiters: up to two more of them belong to
the text. -/
def closeBlock (delimiter : Char) : List Char → List Char × List Char
  | a :: b :: s =>
    if a = delimiter then
      if b = delimiter then ([a, b], s) else ([a], b :: s)
    else ([], a :: b :: s)
  | [a] => if a = delimiter then ([a], []) else ([], [a])
  | [] => ([], [])

/-- Whether a line has nothing but blanks. -/
def isEmptyLine (s : List Char) : Bool := (lineEnd? (s.dropWhile isBlank)).isSome

/-- A text between quotes, over several lines. A backslash at the end of a line takes away all blanks
and line ends that follow; `gap` tells that one has just been read. -/
def readBlock? (gap : Bool) : List Char → Option (List Char × List Char)
  | [] => none
  | '"' :: '"' :: '"' :: s => some (closeBlock '"' s)
  | '\r' :: '\n' :: s => if gap then readBlock? true s else consText '\n' (readBlock? false s)
  | '\\' :: 'b' :: s => consText '\x08' (readBlock? false s)
  | '\\' :: 't' :: s => consText '\t' (readBlock? false s)
  | '\\' :: 'n' :: s => consText '\n' (readBlock? false s)
  | '\\' :: 'f' :: s => consText '\x0c' (readBlock? false s)
  | '\\' :: 'r' :: s => consText '\r' (readBlock? false s)
  | '\\' :: '"' :: s => consText '"' (readBlock? false s)
  | '\\' :: '\\' :: s => consText '\\' (readBlock? false s)
  | '\\' :: 'u' :: a :: b :: c :: d :: s =>
    consHex [a, b, c, d] (readBlock? false s)
  | '\\' :: 'U' :: a :: b :: c :: d :: e :: f :: g :: h :: s =>
    consHex [a, b, c, d, e, f, g, h] (readBlock? false s)
  | '\\' :: s => if isEmptyLine s then readBlock? true s else none
  | c :: s =>
    if gap && (isBlank c || c = '\n') then readBlock? true s
    else if isPlain c || c = '\n' then consText c (readBlock? false s)
    else none

/-- A text between apostrophes, over several lines. -/
def readRawBlock? : List Char → Option (List Char × List Char)
  | [] => none
  | '\x27' :: '\x27' :: '\x27' :: s => some (closeBlock '\x27' s)
  | '\r' :: '\n' :: s => consText '\n' (readRawBlock? s)
  | c :: s => if isPlain c || c = '\n' then consText c (readRawBlock? s) else none

/-- A text without the line end at its start. -/
def dropLineEnd (s : List Char) : List Char := (lineEnd? s).getD s

/-! ## Everything read is taken off the text -/

@[grind →] theorem exists_of_consText {c : Char} {taken : Option (List Char × List Char)}
    {text rest : List Char} (h : consText c taken = some (text, rest)) :
    ∃ t, taken = some (t, rest) := by
  cases taken with
  | none => simp [consText] at h
  | some t => obtain ⟨t, r⟩ := t; grind [consText]

@[grind →] theorem exists_of_consHex {digits : List Char} {taken : Option (List Char × List Char)}
    {text rest : List Char} (h : consHex digits taken = some (text, rest)) :
    ∃ t, taken = some (t, rest) := by
  rw [consHex] at h
  grind

theorem length_closeBlock (delimiter : Char) (s : List Char) :
    (closeBlock delimiter s).2.length ≤ s.length := by
  unfold closeBlock
  grind

theorem length_dropLineEnd (s : List Char) : (dropLineEnd s).length ≤ s.length := by
  unfold dropLineEnd lineEnd?
  grind

theorem length_of_readLine? {s text rest : List Char} (h : readLine? s = some (text, rest)) :
    rest.length ≤ s.length := by
  fun_induction readLine? s generalizing text rest <;> try simp only [List.length_cons]
  all_goals grind

theorem length_of_readRawLine? {s text rest : List Char} (h : readRawLine? s = some (text, rest)) :
    rest.length ≤ s.length := by
  fun_induction readRawLine? s generalizing text rest <;> grind

theorem length_of_readBlock? {gap : Bool} {s text rest : List Char}
    (h : readBlock? gap s = some (text, rest)) : rest.length ≤ s.length := by
  fun_induction readBlock? gap s generalizing text rest <;> try simp only [List.length_cons]
  all_goals grind [length_closeBlock]

theorem length_of_readRawBlock? {s text rest : List Char}
    (h : readRawBlock? s = some (text, rest)) : rest.length ≤ s.length := by
  fun_induction readRawBlock? s generalizing text rest <;> grind [length_closeBlock]

end StaticSite.Toml
