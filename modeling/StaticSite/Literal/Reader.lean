import StaticSite.Literal.Trivia
import StaticSite.Literal.Numeral
import StaticSite.Data.Basic

/-!
# Reading a literal

The three readers below follow the grammar of a literal: a value is an object, a list, a text, a
number or one of four words; members and items are separated by commas, of which one more may
stand at the end. Each reader hands on the unread rest with the proof that it is shorter, and so
the readers end.

`Literal.read` is the reader as the rest of the library uses it: data and the offset behind it, or
an error with an offset.
-/

namespace StaticSite.Literal

open Text

/-- A value read off a text, and a rest that is shorter than the text. -/
structure Taken (α : Type) (s : List Char) where
  /-- what was read -/
  value : α
  /-- what is left -/
  rest : List Char
  /-- something was read -/
  shorter : rest.length < s.length

/-- A character that may begin a word. -/
def isWordStart (c : Char) : Bool := c.isAlpha || c = '_' || c = '$'

/-- A character that may continue a word. -/
def isWordPart (c : Char) : Bool := c.isAlphanum || c = '_' || c = '$'

/-- A character that may begin a number. -/
def isNumberStart (c : Char) : Bool := c = '-' || c = '+' || c = '.' || c.isDigit

/-- The value that a word names. -/
def wordValue? (word : List Char) : Option Data :=
  if word = "true".toList then some (.bool true)
  else if word = "false".toList then some (.bool false)
  else if word = "null".toList ∨ word = "undefined".toList then some .null
  else none

theorem isWordPart_of_isWordStart {c : Char} (h : isWordStart c = true) : isWordPart c = true := by
  simp only [isWordStart, isWordPart, Char.isAlphanum, Bool.or_eq_true] at *
  rcases h with (h | h) | h <;> simp [h]

theorem length_dropWhile_lt {p : Char → Bool} {c : Char} {s : List Char} (h : p c = true) :
    ((c :: s).dropWhile p).length < (c :: s).length := by
  have := (List.dropWhile_suffix (l := s) p).length_le
  simp only [List.dropWhile_cons, h, if_true, List.length_cons]
  omega

/-- A value that is not made of other values. -/
def readScalar (s : List Char) : Except Stop (Taken Data s) :=
  match s with
  | [] => .error ⟨.endOfInput, []⟩
  | c :: t =>
    match Delimiter.ofChar? c with
    | some d =>
      match h : readText d t with
      | .error e => .error e
      | .ok (text, r) =>
        .ok ⟨.text (String.ofList text), r, Nat.lt_trans (length_of_readText h) (by simp)⟩
    | none =>
      if isNumberStart c then
        match h : readNumber (c :: t) with
        | .error e => .error e
        | .ok (n, r) => .ok ⟨.number n, r, length_of_readNumber h⟩
      else if h : isWordStart c = true then
        match wordValue? ((c :: t).takeWhile isWordPart) with
        | some v =>
          .ok ⟨v, (c :: t).dropWhile isWordPart, length_dropWhile_lt (isWordPart_of_isWordStart h)⟩
        | none => .error ⟨.notLiteral ((c :: t).takeWhile isWordPart), c :: t⟩
      else .error ⟨.unexpected c, c :: t⟩

/-- The name of a member: a string, a word, or a number, which is written out. -/
def readKey (s : List Char) : Except Stop (Taken (List Char) s) :=
  match s with
  | [] => .error ⟨.unterminatedObject, []⟩
  | c :: t =>
    match (Delimiter.ofChar? c).filter (· ≠ .backtick) with
    | some d =>
      match h : readText d t with
      | .error e => .error e
      | .ok (text, r) => .ok ⟨text, r, Nat.lt_trans (length_of_readText h) (by simp)⟩
    | none =>
      if c.isDigit then
        match h : readNumber (c :: t) with
        | .error e => .error e
        | .ok (n, r) => .ok ⟨n.text, r, length_of_readNumber h⟩
      else if h : isWordStart c = true then
        .ok ⟨(c :: t).takeWhile isWordPart, (c :: t).dropWhile isWordPart,
          length_dropWhile_lt (isWordPart_of_isWordStart h)⟩
      else if c = '[' then .error ⟨.computedKey, c :: t⟩
      else if c = '.' then .error ⟨.spread, c :: t⟩
      else .error ⟨.unexpectedInObject c, c :: t⟩

/-- The text behind the colon that follows a key. -/
def readColon (key : List Char) (s : List Char) : Except Stop (Taken Unit s) :=
  match s with
  | ':' :: t => .ok ⟨(), t, by simp⟩
  | '(' :: t => .error ⟨.method key, '(' :: t⟩
  | ',' :: t => .error ⟨.shorthand key, ',' :: t⟩
  | '\x7d' :: t => .error ⟨.shorthand key, '\x7d' :: t⟩
  | t => .error ⟨.expected ':' t.head?, t⟩

/-- A text without the white space and comments in front, with the proof that it is no longer. -/
def skip (s : List Char) : Except Stop { t : List Char // t.length ≤ s.length } :=
  match h : skipTrivia s with
  | .error e => .error e
  | .ok t => .ok ⟨t, length_of_skipTrivia h⟩

theorem length_tail_lt {t : List Char} {c : Char} {n : Nat} (h : t.head? = some c)
    (ht : t.length ≤ n) : t.tail.length < n := by
  cases t with
  | nil => cases h
  | cons d u => exact ht

mutual

/-- A value, with white space and comments in front. -/
def readValue (s : List Char) : Except Stop (Taken Data s) := do
  let t ← skip s
  if h : t.val.head? = some '\x7b' then
    have hlt : t.val.tail.length < s.length := length_tail_lt h t.property
    let members ← readMembers t.val.tail
    return ⟨.object (Dict.ofList members.value), members.rest, Nat.lt_trans members.shorter hlt⟩
  else if h : t.val.head? = some '[' then
    have hlt : t.val.tail.length < s.length := length_tail_lt h t.property
    let items ← readItems t.val.tail
    return ⟨.list items.value, items.rest, Nat.lt_trans items.shorter hlt⟩
  else
    let scalar ← readScalar t.val
    return ⟨scalar.value, scalar.rest, Nat.lt_of_lt_of_le scalar.shorter t.property⟩
termination_by 2 * s.length
decreasing_by all_goals omega

/-- The members of an object up to its closing brace. -/
def readMembers (s : List Char) : Except Stop (Taken (List (String × Data)) s) := do
  let t ← skip s
  if h : t.val.head? = some '\x7d' then
    return ⟨[], t.val.tail, length_tail_lt h t.property⟩
  else
    let key ← readKey t.val
    let u ← skip key.rest
    let colon ← readColon key.value u.val
    have hcolon : colon.rest.length < s.length :=
      Nat.lt_of_lt_of_le colon.shorter
        (Nat.le_trans u.property (Nat.le_trans (Nat.le_of_lt key.shorter) t.property))
    let value ← readValue colon.rest
    let member := (String.ofList key.value, value.value)
    let v ← skip value.rest
    have hv : v.val.length ≤ s.length :=
      Nat.le_trans v.property (Nat.le_of_lt (Nat.lt_trans value.shorter hcolon))
    if h : v.val.head? = some ',' then
      have hlt : v.val.tail.length < s.length := length_tail_lt h hv
      let more ← readMembers v.val.tail
      return ⟨member :: more.value, more.rest, Nat.lt_trans more.shorter hlt⟩
    else if h : v.val.head? = some '\x7d' then
      return ⟨[member], v.val.tail, length_tail_lt h hv⟩
    else throw ⟨.expected '\x7d' v.val.head?, v.val⟩
termination_by 2 * s.length + 1
decreasing_by all_goals omega

/-- The items of a list up to its closing bracket. -/
def readItems (s : List Char) : Except Stop (Taken (List Data) s) := do
  let t ← skip s
  if h : t.val.head? = some ']' then return ⟨[], t.val.tail, length_tail_lt h t.property⟩
  else if (startsWith? ['.', '.', '.'] t.val).isSome then throw ⟨.spread, t.val⟩
  else if t.val.isEmpty then throw ⟨.unterminatedArray, []⟩
  else
    have ht : t.val.length ≤ s.length := t.property
    let value ← readValue t.val
    let v ← skip value.rest
    have hv : v.val.length ≤ s.length :=
      Nat.le_trans v.property (Nat.le_trans (Nat.le_of_lt value.shorter) ht)
    if h : v.val.head? = some ',' then
      have hlt : v.val.tail.length < s.length := length_tail_lt h hv
      let more ← readItems v.val.tail
      return ⟨value.value :: more.value, more.rest, Nat.lt_trans more.shorter hlt⟩
    else if h : v.val.head? = some ']' then
      return ⟨[value.value], v.val.tail, length_tail_lt h hv⟩
    else throw ⟨.expected ']' v.val.head?, v.val⟩
termination_by 2 * s.length + 1
decreasing_by all_goals omega

end

/-- The value at the start of a text and what follows it. -/
def value? (s : List Char) : Except Stop (Data × List Char) :=
  (readValue s).map fun taken => (taken.value, taken.rest)

/-- The literal at the start of a text, with the offset behind it. -/
def read (src : String) : Except LiteralError (Data × Nat) :=
  match value? src.toList with
  | .ok (value, rest) => .ok (value, byteLength src.toList - byteLength rest)
  | .error stop => .error (stop.at src.toList)

/-- The offset behind the white space and comments that stand at an offset. An offset that is not
between two characters stands for the end of the text. -/
def triviaEnd (src : String) (pos : Nat) : Except LiteralError Nat :=
  let whole := src.toList
  match skipTrivia ((dropBytes? pos whole).getD []) with
  | .ok rest => .ok (byteLength whole - byteLength rest)
  | .error stop => .error (stop.at whole)

end StaticSite.Literal
