import StaticSite.Minify.Css

/-!
# Smaller scripts

`minifyScript` takes the white space out of a script that is one statement, keeps what separates two
words, and drops the semicolon at the end.
-/

namespace StaticSite.Minify

open Text

/-- A character of a name or a number. -/
def isScriptWord (c : Char) : Bool := c.isAlphanum || c == '_' || c == '$'

/-- A script without superfluous white space; `fuel` bounds the number of steps. -/
def squeezeScript (before? : Option Char) : Nat → List Char → List Char
  | 0, _ => []
  | _, [] => []
  | fuel + 1, c :: s =>
    if isBlank c then
      let rest := trimStart s
      if before?.any isScriptWord && rest.head?.any isScriptWord then
        ' ' :: squeezeScript (some ' ') fuel rest
      else squeezeScript before? fuel rest
    else if c = '\x22' ∨ c = '\x27' ∨ c = '\x60' then
      let (inside, rest) := cutString c s
      c :: inside ++ squeezeScript (some c) fuel rest
    else c :: squeezeScript (some c) fuel s

/-- A script without superfluous white space and without a semicolon at its end. -/
def minifyScript (s : List Char) : List Char :=
  let squeezed := squeezeScript none s.length (trim s)
  (squeezed.reverse.dropWhile (· = ';')).reverse

end StaticSite.Minify
