import StaticSite.Literal.Numeral
import StaticSite.Template.Node
import StaticSite.Text.Blank

/-!
# Expressions

An expression between double braces, or bound to an attribute, is a quoted text, one of the words
`true`, `false` and `null`, an integer, or a path of names with dots between them. A path is
followed from the scope: in an object a name is a key, in a list it is an index.
-/

namespace StaticSite.Template

open Text Literal

/-- The text between two equal quotes at the ends of an expression. -/
def quoted? (s : List Char) : Option (List Char) :=
  match s with
  | [] => none
  | c :: t =>
    if (c = '\x27' ∨ c = '\x22' ∨ c = '\x60') ∧ t.getLast? = some c then some t.dropLast else none

/-- A natural number in decimal, perhaps with a plus sign and with leading zeros. -/
def index? (s : List Char) : Option Nat :=
  match s with
  | '+' :: t => natIn? 10 t
  | t => natIn? 10 t

/-- A decimal integer that fits into 64 bits, perhaps with a sign. -/
def integer? (s : List Char) : Option Int :=
  let (negative, digits) := readSign s
  (natIn? 10 digits).bind fun n =>
    if negative then if n ≤ Number.greatestInt + 1 then some (-(n : Int)) else none
    else if n ≤ Number.greatestInt then some n else none

/-- One step of a path. -/
def follow (value : Data) (segment : List Char) : Option Data :=
  match value with
  | .object fields => Dict.get? (String.ofList segment) fields
  | .list items => (index? segment).bind (items[·]?)
  | _ => none

/-- The value of a path. The first name must not be empty. -/
def lookUp (scope : Fields) (source : List Char) : Option Data :=
  match (splitOn '.' source).map trim with
  | [] => none
  | [] :: _ => none
  | first :: segments => do
    let start ← Dict.get? (String.ofList first) scope
    segments.foldlM follow start

/-- The value of a word that stands for itself. -/
def constant? (s : List Char) : Option Data :=
  if s = "true".toList then some (.bool true)
  else if s = "false".toList then some (.bool false)
  else if s = "null".toList then some .null
  else none

/-- The value of an expression in a scope. -/
def evaluate? (scope : Fields) (source : String) : Option Data :=
  let s := source.toList
  match quoted? s with
  | some inner => some (.text (String.ofList inner))
  | none =>
    match constant? s with
    | some value => some value
    | none =>
      match integer? s with
      | some i => some (.number (.int i))
      | none => lookUp scope s

end StaticSite.Template
