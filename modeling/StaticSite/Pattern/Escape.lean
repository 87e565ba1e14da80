import StaticSite.Literal.Quoted
import StaticSite.Pattern.Basic
import StaticSite.Pattern.Options

/-!
# Escapes in patterns

Behind a backslash stands a sign that is to be itself, a letter for a character that is hard to
write, the number of a character, a letter for a set of characters, or a letter for a kind of place.

Of the properties of characters, only white space and decimal digits are known by name. Without the
Unicode option a pattern must not describe a part of a character, so no set that has characters
beyond ASCII can be written there.
-/

namespace StaticSite.Pattern

open Text Literal

/-- What an escape stands for. -/
inductive Escaped where
  /-- a character; `isByte` tells that it was written with exactly two digits, and so as a byte -/
  | char (c : Char) (isByte : Bool)
  /-- a set of characters -/
  | set (s : CharSet)
  /-- a place -/
  | edge (kind : Edge)

/-- The character with a hexadecimal number. -/
def charOfHex? (digits : List Char) : Option Char :=
  if digits = [] then none
  else (hexNumber? digits).bind fun n => if n.isValidChar then some (Char.ofNat n) else none

/-- So many characters of a spaced text. -/
def takeSpaced? (o : Options) : Nat → List Char → Option (List Char × List Char)
  | 0, s => some ([], s)
  | n + 1, s =>
    match o.skip s with
    | [] => none
    | c :: t => (takeSpaced? o n t).map fun (taken, rest) => (c :: taken, rest)

/-- The character that a hexadecimal escape names, in braces or with a fixed count of digits. -/
def hexEscape? (o : Options) (count : Nat) (s : List Char) : Option (Escaped × List Char) :=
  match o.skip s with
  | '\x7b' :: t => do
    let (digits, rest) ← o.spanTo? '\x7d' t
    return (.char (← charOfHex? digits) false, rest)
  | t => do
    let (digits, rest) ← takeSpaced? o count t
    return (.char (← charOfHex? digits) (count == 2), rest)

/-- A character of ASCII that stands for itself behind a backslash. -/
def isSelfEscaped (c : Char) : Bool := c.toNat < 128 && !c.isAlphanum && c != '<' && c != '>'

/-! ## Sets -/

/-- A set of Unicode or its ASCII part, or what is outside of it. -/
def classSet? (o : Options) (unicode ascii : CharSet) (negated : Bool) : Option CharSet :=
  if o.unicode then some (if negated then unicode.complement else unicode)
  else if negated then none
  else some ascii

/-- The name of a property without what is not looked at: case, blanks, underscores, hyphens, signs
beyond ASCII and a leading `is`. -/
def plainName (name : List Char) : List Char :=
  let name := match lower name with
    | 'i' :: 's' :: rest => rest
    | name => name
  name.filter fun c => c.toNat < 128 && c != ' ' && c != '_' && c != '-'

/-- The names of decimal digits among the categories of characters. -/
def isDigitName (name : List Char) : Bool :=
  ["nd", "digit", "decimalnumber"].contains (String.ofList (plainName name))

/-- The set of the characters with a property. A colon or an equals sign stands between the name of
a property and a value; an exclamation mark before the equals sign is read over. -/
def property? (name : List Char) : Option CharSet :=
  match (cut? "!=".toList name).or ((cut? [':'] name).or (cut? ['='] name)) with
  | some (property, value) =>
    if ["gc", "generalcategory"].contains (String.ofList (plainName property)) && isDigitName value
    then some .digit else none
  | none =>
    if ["space", "whitespace", "wspace"].contains (String.ofList (plainName name)) then some .blank
    else if isDigitName name then some .digit
    else none

/-- The set that a property in braces names. It cannot stand for both cases of letters. -/
def propertyEscape? (o : Options) (negated : Bool) (s : List Char) :
    Option (Escaped × List Char) :=
  match o.skip s with
  | '\x7b' :: t => do
    let (name, rest) ← o.spanTo? '\x7d' t
    let set ← property? name
    if !o.unicode || o.anyCase then none
    else return (.set (if negated then set.complement else set), rest)
  | _ => none

/-! ## Places -/

/-- The kind of place that a name in braces stands for. -/
def wordEdge? : String → Option WordEdge
  | "start" => some .start
  | "end" => some .stop
  | "start-half" => some .startHalf
  | "end-half" => some .stopHalf
  | _ => none

/-- The edge of a word, perhaps with its kind in braces. Braces that do not start with a letter or a
hyphen are not part of the escape. -/
def wordEscape? (o : Options) (s : List Char) : Option (Escaped × List Char) :=
  match s with
  | '\x7b' :: t =>
    match o.skip t with
    | [] => none
    | c :: u =>
      if c.isAlpha || c = '-' then do
        let (name, rest) ← o.spanTo? '\x7d' (c :: u)
        return (.edge (.word (← wordEdge? (String.ofList name)) !o.unicode), rest)
      else some (.edge (.word .either !o.unicode), s)
  | _ => some (.edge (.word .either !o.unicode), s)

/-- What an escape stands for, read behind its backslash. -/
def escape? (o : Options) : List Char → Option (Escaped × List Char)
  | [] => none
  | 'd' :: s => (classSet? o .digit .asciiDigit false).map fun set => (.set set, s)
  | 'D' :: s => (classSet? o .digit .asciiDigit true).map fun set => (.set set, s)
  | 's' :: s => (classSet? o .blank .asciiBlank false).map fun set => (.set set, s)
  | 'S' :: s => (classSet? o .blank .asciiBlank true).map fun set => (.set set, s)
  | 'w' :: s => (classSet? o .word .asciiWord false).map fun set => (.set set, s)
  | 'W' :: s => (classSet? o .word .asciiWord true).map fun set => (.set set, s)
  | 'p' :: s => propertyEscape? o false s
  | 'P' :: s => propertyEscape? o true s
  | 'b' :: s => wordEscape? o s
  | 'B' :: s => some (.edge (.word .neither !o.unicode), s)
  | '<' :: s => some (.edge (.word .start !o.unicode), s)
  | '>' :: s => some (.edge (.word .stop !o.unicode), s)
  | 'A' :: s => some (.edge .textStart, s)
  | 'z' :: s => some (.edge .textEnd, s)
  | 'n' :: s => some (.char '\n' false, s)
  | 't' :: s => some (.char '\t' false, s)
  | 'r' :: s => some (.char '\r' false, s)
  | 'f' :: s => some (.char '\x0c' false, s)
  | 'v' :: s => some (.char '\x0b' false, s)
  | 'a' :: s => some (.char '\x07' false, s)
  | 'x' :: s => hexEscape? o 2 s
  | 'u' :: s => hexEscape? o 4 s
  | 'U' :: s => hexEscape? o 8 s
  | c :: s => if isSelfEscaped c then some (.char c false, s) else none

end StaticSite.Pattern
