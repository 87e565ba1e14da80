import StaticSite.Number.Basic
import StaticSite.Toml.Token

/-!
# Values of TOML

A value is a text, a whole number of 64 bits, a truth value, a list or a table. Numbers with a
fraction, dates and times are not known; no setting has one.
-/

namespace StaticSite.Toml

/-- The names that lead to a place in a document. -/
abbrev KeyPath := List String

/-- A value. -/
inductive Value where
  /-- a text -/
  | text (s : String)
  /-- a whole number -/
  | integer (n : Int)
  /-- a truth value -/
  | truth (b : Bool)
  /-- a list -/
  | list (items : List Value)
  /-- a table on one line -/
  | table (members : List (KeyPath × Value))

namespace Value

/-- The number that digits write. Single underscores may stand between digits. -/
def natIn? (radix : Nat) (word : List Char) : Option Nat :=
  let runs := Text.splitOn '_' word
  if runs.any (·.isEmpty) then none
  else runs.flatten.foldlM
    (fun n c => ((Literal.hexValue? c).filter (· < radix)).map (radix * n + ·)) 0

/-- Decimal digits that do not start with a zero, unless that is all. -/
def decimal? : List Char → Option Nat
  | '0' :: _ :: _ => none
  | word => natIn? 10 word

/-- The whole number that a word writes. -/
def integer? (word : List Char) : Option Int :=
  let n? : Option Int := match word with
    | '0' :: 'x' :: digits => (natIn? 16 digits).map Int.ofNat
    | '0' :: 'o' :: digits => (natIn? 8 digits).map Int.ofNat
    | '0' :: 'b' :: digits => (natIn? 2 digits).map Int.ofNat
    | '-' :: digits => (decimal? digits).map fun n => -Int.ofNat n
    | '+' :: digits => (decimal? digits).map Int.ofNat
    | digits => (decimal? digits).map Int.ofNat
  n?.filter fun n => -(Number.greatestInt : Int) - 1 ≤ n && n ≤ Number.greatestInt

/-- The value that a word writes. -/
def ofWord? (word : List Char) : Option Value :=
  if word = "true".toList then some (.truth true)
  else if word = "false".toList then some (.truth false)
  else (integer? word).map .integer

end Value

/-! ## Keys -/

/-- A character of a key that is not quoted. -/
def isKeyChar (c : Char) : Bool := c.isAlphanum || c = '-' || c = '_'

/-- The key that a token writes. -/
def Token.key? : Token → Option String
  | .word s => if s.all isKeyChar then some (String.ofList s) else none
  | .line s => some (String.ofList s)
  | _ => none

/-- Keys with dots between them, and the tokens behind. -/
def readPath? : List Token → Option (KeyPath × List Token)
  | [] => none
  | t :: .mark '.' :: ts =>
    match t.key?, readPath? ts with
    | some k, some (ks, rest) => some (k :: ks, rest)
    | _, _ => none
  | t :: ts =>
    match t.key? with
    | some k => some ([k], ts)
    | none => none

theorem length_of_readPath? {ts rest : List Token} {p : KeyPath}
    (h : readPath? ts = some (p, rest)) : rest.length < ts.length := by
  fun_induction readPath? ts generalizing p rest <;> grind

/-! ## Reading values -/

/-- A thing read off some tokens, and what follows them. -/
structure Read (α : Type) (ts : List Token) where
  /-- what was read -/
  value : α
  /-- what follows -/
  rest : List Token
  /-- something was read -/
  shorter : rest.length < ts.length

/-- Tokens without the line ends in front. -/
def skipLineEnds (ts : List Token) : List Token := ts.dropWhile (· = .lineEnd)

theorem length_skipLineEnds (ts : List Token) : (skipLineEnds ts).length ≤ ts.length :=
  (List.dropWhile_suffix _).length_le

theorem length_of_skipLineEnds {ts rest : List Token} {t : Token}
    (h : skipLineEnds ts = t :: rest) : rest.length < ts.length := by
  have := length_skipLineEnds ts
  rw [h] at this
  exact this

theorem length_lt_of_cons_lt {ts rest : List Token} {t : Token} {n : Nat} (hn : ts.length < n)
    (h : ts = t :: rest) : rest.length < n := by
  rw [h] at hn
  exact Nat.lt_of_succ_lt hn

mutual

/-- A value. -/
def readValue? (ts : List Token) : Option (Read Value ts) :=
  match ts with
  | .word s :: rest => (Value.ofWord? s).map fun v => ⟨v, rest, Nat.lt_succ_self _⟩
  | .line s :: rest => some ⟨.text (String.ofList s), rest, Nat.lt_succ_self _⟩
  | .block s :: rest => some ⟨.text (String.ofList s), rest, Nat.lt_succ_self _⟩
  | .mark '[' :: rest => do
    let items ← readItems? rest
    return ⟨.list items.value, items.rest, Nat.lt_succ_of_lt items.shorter⟩
  | .mark '\x7b' :: .mark '\x7d' :: rest =>
    some ⟨.table [], rest, Nat.lt_succ_of_lt (Nat.lt_succ_self _)⟩
  | .mark '\x7b' :: rest => do
    let members ← readMembers? rest
    return ⟨.table members.value, members.rest, Nat.lt_succ_of_lt members.shorter⟩
  | _ => none
termination_by 2 * ts.length
decreasing_by all_goals (simp only [List.length_cons]; omega)

/-- The items of a list up to its closing bracket. Line ends may stand anywhere between them, and a
comma behind the last one. -/
def readItems? (ts : List Token) : Option (Read (List Value) ts) :=
  match h : skipLineEnds ts with
  | .mark ']' :: rest => some ⟨[], rest, length_of_skipLineEnds h⟩
  | us => do
    have hus : us.length ≤ ts.length := h ▸ length_skipLineEnds ts
    let item ← readValue? us
    have hit : item.rest.length < ts.length := Nat.lt_of_lt_of_le item.shorter hus
    match hr : skipLineEnds item.rest with
    | .mark ',' :: rest => do
      have hlt : rest.length < ts.length := Nat.lt_trans (length_of_skipLineEnds hr) hit
      let items ← readItems? rest
      return ⟨item.value :: items.value, items.rest, Nat.lt_trans items.shorter hlt⟩
    | .mark ']' :: rest => some ⟨[item.value], rest, Nat.lt_trans (length_of_skipLineEnds hr) hit⟩
    | _ => none
termination_by 2 * ts.length + 1
decreasing_by all_goals omega

/-- The members of a table up to its closing brace, of which there is at least one. -/
def readMembers? (ts : List Token) : Option (Read (List (KeyPath × Value)) ts) :=
  match h : readPath? ts with
  | some (key, .mark '=' :: us) => do
    have hus : us.length < ts.length := Nat.lt_of_succ_lt (length_of_readPath? h)
    let v ← readValue? us
    have hv : v.rest.length < ts.length := Nat.lt_trans v.shorter hus
    match hr : v.rest with
    | .mark ',' :: rest => do
      have hlt : rest.length < ts.length := length_lt_of_cons_lt hv hr
      let members ← readMembers? rest
      return ⟨(key, v.value) :: members.value, members.rest, Nat.lt_trans members.shorter hlt⟩
    | .mark '\x7d' :: rest => some ⟨[(key, v.value)], rest, length_lt_of_cons_lt hv hr⟩
    | _ => none
  | _ => none
termination_by 2 * ts.length + 1
decreasing_by all_goals omega

end

end StaticSite.Toml
