import StaticSite.Toml.Value
import StaticSite.Number.Basic

/-!
# Writing TOML

How values are written. A text with backslashes stands between apostrophes, if it can, so that they
need not be doubled; any other text stands between quotes.
-/

namespace StaticSite.Toml

open Text

/-- A character between quotes. -/
def escapeChar (c : Char) : List Char :=
  if c = '"' then ['\\', '"']
  else if c = '\\' then ['\\', '\\']
  else if isPlain c then [c]
  else if c = '\n' then ['\\', 'n']
  else if c = '\r' then ['\\', 'r']
  else '\\' :: 'u' :: padZero 4 (hex c.toNat)

/-- Whether a text is better put between apostrophes. -/
def prefersRaw (s : List Char) : Bool :=
  (s.contains '\\' || s.contains '"') && s.all fun c => isPlain c && c ≠ '\x27'

/-- A text as it is written. -/
def quoteText (s : String) : String :=
  let cs := s.toList
  if prefersRaw cs then "\x27" ++ s ++ "\x27"
  else "\"" ++ String.ofList (cs.flatMap escapeChar) ++ "\""

/-- A list of texts as it is written. -/
def quoteTexts (items : List String) : String :=
  "[" ++ ", ".intercalate (items.map quoteText) ++ "]"

/-- A truth value as it is written. -/
def quoteTruth (b : Bool) : String := if b then "true" else "false"

/-- An assignment on a line of its own. -/
def assignment (key value : String) : String := key ++ " = " ++ value ++ "\n"

end StaticSite.Toml
