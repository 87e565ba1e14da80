import StaticSite.Proofs.Gaps
import StaticSite.Proofs.Success

/-!
# The grammar of literals

A literal is a value: a text, a number, one of four words, a list of values in brackets or a list of
members in braces. In front of every token there may be a gap. In a listing, elements are separated
by one comma each, and one more may stand behind the last.

`Derives` is this grammar as a relation: from a text, a symbol of the grammar takes what it can be
derived to, denotes a meaning and leaves a rest. Tokens and gaps are the longest ones that the text
has, so the rest is part of the relation.
-/

namespace StaticSite.Literal

open Text

/-! ## Tokens -/

/-- A word is the longest run of letters, digits, `_` and `$`, and does not start with a digit. -/
structure Word (s word rest : List Char) : Prop where
  /-- it stands at the start of the text -/
  split : s = word ++ rest
  /-- it is not empty and starts with no digit -/
  start : ∃ c, word.head? = some c ∧ c.isDigit = false
  /-- it has no other characters -/
  inside : ∀ c ∈ word, isWordPart c = true
  /-- it goes as far as it can -/
  longest : ∀ c, rest.head? = some c → isWordPart c = false

/-- A text between two delimiters, as `readText` reads it behind the first one. -/
def Quoted (d : Delimiter) (s content rest : List Char) : Prop :=
  ∃ t, s = d.char :: t ∧ readText d t = .ok (content, rest)

/-- A number, as `readNumber` reads it from a digit, a sign or a point on. -/
structure Numeral (s : List Char) (n : Number) (rest : List Char) : Prop where
  /-- it starts with a digit, a sign or a point -/
  start : ∃ c, s.head? = some c ∧ isNumberStart c = true
  /-- it is the longest run that can be a number, and it is one -/
  read : readNumber s = .ok (n, rest)

/-- A value that is a single token. -/
inductive Scalar : List Char → Data → List Char → Prop where
  /-- a string or a template literal -/
  | text {d : Delimiter} {s content rest : List Char} (quoted : Quoted d s content rest) :
      Scalar s (.text (String.ofList content)) rest
  /-- a number -/
  | number {s rest : List Char} {n : Number} (numeral : Numeral s n rest) :
      Scalar s (.number n) rest
  /-- the word `true` or `false` -/
  | bool {s rest : List Char} {b : Bool}
      (word : Word s (if b then "true" else "false").toList rest) : Scalar s (.bool b) rest
  /-- the word `null` -/
  | null {s rest : List Char} (word : Word s "null".toList rest) : Scalar s .null rest
  /-- the word `undefined`, which stands for no value either -/
  | undefined {s rest : List Char} (word : Word s "undefined".toList rest) : Scalar s .null rest

/-- The name of a member. -/
inductive Key : List Char → List Char → List Char → Prop where
  /-- a string, but no template literal -/
  | text {d : Delimiter} {s content rest : List Char} (string : d ≠ .backtick)
      (quoted : Quoted d s content rest) : Key s content rest
  /-- any word -/
  | word {s word rest : List Char} (isWord : Word s word rest) : Key s word rest
  /-- a number that starts with a digit, which is written out -/
  | number {s rest : List Char} {n : Number} (digit : ∃ c, s.head? = some c ∧ c.isDigit = true)
      (numeral : Numeral s n rest) : Key s n.text rest

/-! ## Symbols -/

/-- What a listing can be of. -/
inductive Element where
  /-- values, in brackets -/
  | value
  /-- members, in braces -/
  | member

/-- What an element denotes. -/
def Element.Meaning : Element → Type
  | .value => Data
  | .member => String × Data

/-- What closes a listing. -/
def Element.closing : Element → Char
  | .value => ']'
  | .member => '\x7d'

/-- The symbols of the grammar. -/
inductive Symbol where
  /-- an element -/
  | one (e : Element)
  /-- elements with a comma in front of each -/
  | more (e : Element)
  /-- what stands between the opening and the closing of a listing, but for the gap at the end -/
  | listing (e : Element)

/-- What a symbol denotes. -/
def Symbol.Meaning : Symbol → Type
  | .one e => e.Meaning
  | .more e => List e.Meaning
  | .listing e => List e.Meaning

/-- **The grammar.** `Derives x s m rest` says that the text `s` starts with what the symbol `x` can
be derived to, that this denotes `m`, and that `rest` is what stands behind it. -/
inductive Derives : (x : Symbol) → List Char → x.Meaning → List Char → Prop where
  /-- a value can be a token -/
  | scalar {s t rest : List Char} {v : Data} (gap : Gap s t) (token : Scalar t v rest) :
      Derives (.one .value) s v rest
  /-- a value can be a list in brackets -/
  | list {s t u rest : List Char} {vs : List Data} (opening : Gap s ('[' :: t))
      (items : Derives (.listing .value) t vs u) (closing : Gap u (']' :: rest)) :
      Derives (.one .value) s (Data.list vs) rest
  /-- a value can be an object in braces, of whose members with one name the last stays -/
  | object {s t u rest : List Char} {ms : List (String × Data)} (opening : Gap s ('\x7b' :: t))
      (members : Derives (.listing .member) t ms u) (closing : Gap u ('\x7d' :: rest)) :
      Derives (.one .value) s (Data.object (Dict.ofList ms)) rest
  /-- a member is a key and a value with a colon between them -/
  | member {s t u w rest key : List Char} {v : Data} (gap : Gap s t) (name : Key t key u)
      (colon : Gap u (':' :: w)) (value : Derives (.one .value) w v rest) :
      Derives (.one .member) s (String.ofList key, v) rest
  /-- a listing can be empty -/
  | empty {e : Element} {s : List Char} : Derives (.listing e) s ([] : List e.Meaning) s
  /-- or it has a first element, others behind commas, and one more comma or none -/
  | some {e : Element} {s t u rest : List Char} {m : e.Meaning} {ms : List e.Meaning}
      (first : Derives (.one e) s m t) (others : Derives (.more e) t ms u)
      (comma : rest = u ∨ Gap u (',' :: rest)) :
      Derives (.listing e) s (m :: ms : List e.Meaning) rest
  /-- there need not be another element -/
  | last {e : Element} {s : List Char} : Derives (.more e) s ([] : List e.Meaning) s
  /-- another element stands behind a comma -/
  | next {e : Element} {s t u rest : List Char} {m : e.Meaning} {ms : List e.Meaning}
      (comma : Gap s (',' :: t)) (one : Derives (.one e) t m u)
      (others : Derives (.more e) u ms rest) : Derives (.more e) s (m :: ms : List e.Meaning) rest

/-- A text goes on with a listing and with what closes it. -/
def Closes (e : Element) (s : List Char) (ms : List e.Meaning) (rest : List Char) : Prop :=
  ∃ u, Derives (.listing e) s ms u ∧ Gap u (e.closing :: rest)

/-- What other languages have in the place of an element and literals have not. -/
inductive Foreign : Element → List Char → Prop where
  /-- a comma, which is a leading one or a second one -/
  | comma {e : Element} {s t : List Char} (gap : Gap s (',' :: t)) : Foreign e s
  /-- the three points of a spread -/
  | spread {e : Element} {s t : List Char} (gap : Gap s ('.' :: '.' :: '.' :: t)) : Foreign e s
  /-- a key in brackets -/
  | computed {s t : List Char} (gap : Gap s ('[' :: t)) : Foreign .member s
  /-- a key with anything but a colon behind it: a shorthand, or a method -/
  | unmarked {s t u w key : List Char} (gap : Gap s t) (name : Key t key u) (behind : Gap u w)
      (colon : w.head? ≠ some ':') : Foreign .member s

end StaticSite.Literal
