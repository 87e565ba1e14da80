import StaticSite.Text.Distinct

/-!
# Names of tags

The name of a tag, as far as components are concerned, is the longest run of ASCII letters, digits
and underscores directly behind a `<`. Closing tags, comments and declarations have another
character there and so no name. `tagNames` lists the names of a markup text, each spelling once, in
the order of their first appearance.
-/

namespace StaticSite.Markup

/-- A character of a component name. -/
def isNameChar (c : Char) : Bool := c.isAlphanum || c == '_'

/-- The names behind every `<` of a text, in order and with repeats. -/
def tagRuns : List Char → List (List Char)
  | [] => []
  | c :: s =>
    if c = '<' then
      match s.takeWhile isNameChar with
      | [] => tagRuns s
      | run => run :: tagRuns s
    else tagRuns s

/-- The distinct names of tags in a text, in order of first appearance. -/
def tagNames (markup : String) : List String :=
  Text.distinct ((tagRuns markup.toList).map String.ofList)

end StaticSite.Markup
