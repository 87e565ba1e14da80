import StaticSite.Text.Span
import StaticSite.Text.Blank

/-!
# Smaller style rules

`minifyCss` takes comments and superfluous white space out of style rules, and the semicolon before
a closing brace. Strings are kept as they are. A blank that separates two parts of a selector or of
a value stays, as one space.
-/

namespace StaticSite.Minify

open Text

/-- A string up to its closing quote, and what follows it. -/
def cutString (quote : Char) : List Char → List Char × List Char
  | [] => ([], [])
  | '\\' :: c :: s =>
    let (inside, rest) := cutString quote s
    ('\\' :: c :: inside, rest)
  | c :: s =>
    if c = quote then ([c], s)
    else
      let (inside, rest) := cutString quote s
      (c :: inside, rest)

/-- What style rules are made of. -/
inductive CssToken where
  /-- a run of white space and comments -/
  | gap
  /-- a string with its quotes -/
  | string (text : List Char)
  /-- any other character -/
  | char (c : Char)
  deriving DecidableEq

/-- Style rules as tokens; `fuel` bounds their number. -/
def cssTokens : Nat → List Char → List CssToken
  | 0, _ => []
  | _, [] => []
  | fuel + 1, c :: s =>
    match startsWith? ['/', '*'] (c :: s) with
    | some inside =>
      match cut? ['*', '/'] inside with
      | some (_, rest) => .gap :: cssTokens fuel rest
      | none => [.gap]
    | none =>
      if isBlank c then .gap :: cssTokens fuel (trimStart s)
      else if c = '\x22' ∨ c = '\x27' then
        let (inside, rest) := cutString c s
        .string (c :: inside) :: cssTokens fuel rest
      else .char c :: cssTokens fuel s

/-- A character next to which white space means nothing. A colon is one only inside braces, since in
front of them it can start a part of a selector. -/
def isCssMark (depth : Nat) (c : Char) : Bool :=
  c == '\x7b' || c == '\x7d' || c == ';' || c == ',' || c == '>' || (c == ':' && depth != 0)

/-- Writes tokens; `before?` is the last character written, and `depth` counts the open braces. -/
def writeCss (depth : Nat) (before? : Option Char) : List CssToken → List Char
  | [] => []
  | .gap :: .gap :: rest => writeCss depth before? (.gap :: rest)
  | .gap :: rest =>
    let bare : Bool := match rest with
      | [] => true
      | .char c :: _ => isCssMark depth c
      | _ => false
    if bare || before?.all (isCssMark depth) then writeCss depth before? rest
    else ' ' :: writeCss depth (some ' ') rest
  | .string text :: rest => text ++ writeCss depth (some '\x22') rest
  | .char c :: rest =>
    let closes : Bool := match rest with
      | .char d :: _ => d == '\x7d'
      | .gap :: .char d :: _ => d == '\x7d'
      | .gap :: .gap :: .char d :: _ => d == '\x7d'
      | _ => false
    if c = ';' ∧ closes then writeCss depth before? rest
    else
      let depth := if c = '\x7b' then depth + 1 else if c = '\x7d' then depth - 1 else depth
      c :: writeCss depth (some c) rest
termination_by tokens => tokens.length

/-- Style rules without comments, superfluous white space and last semicolons. -/
def minifyCss (s : List Char) : List Char := writeCss 0 none (cssTokens s.length s)

end StaticSite.Minify
