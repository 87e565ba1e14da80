import StaticSite.Minify.Html
import StaticSite.Text.Blank

/-!
# The minifier

Documents are made smaller by a library, which is a parameter: it gets the bytes of a document and
gives back those of another one. Style rules and scripts are handed to it as the content of an
element, which is taken off again. A minifier that is switched off changes nothing.

`Minify.library` is a small library that knows the most common cases. It is what the command line runs
with; nothing that is proved of sites depends on it.
-/

namespace StaticSite

open Text

/-- A library that makes a document smaller where its bytes are text. -/
def Minify.library (document : ByteArray) : ByteArray :=
  match String.fromUTF8? document with
  | some text => (String.ofList (minifyHtml text.toList)).toUTF8
  | none => document

/-- Whether texts are made smaller, with a library for it. -/
structure Minifier (library : ByteArray → ByteArray := Minify.library) where
  /-- whether it is switched on -/
  enabled : Bool

namespace Minifier

variable {library : ByteArray → ByteArray}

/-- What the library makes of a document. One that is no text is not used. -/
def shrink (library : ByteArray → ByteArray) (text : String) : String :=
  (String.fromUTF8? (library text.toUTF8)).getD text

/-- What a text starts and ends with, taken off. -/
def unwrap? (front back s : List Char) : Option (List Char) := do
  let rest ← startsWith? front s
  let inside ← startsWith? back.reverse rest.reverse
  return inside.reverse

/-- What the library makes of a text inside an element. If it does not keep the tags, the text is only
trimmed. -/
def shrinkInside (library : ByteArray → ByteArray) (tag text : String) : String :=
  let front := "<" ++ tag ++ ">"
  let back := "</" ++ tag ++ ">"
  let small := trim (shrink library (front ++ text ++ back)).toList
  String.ofList ((unwrap? front.toList back.toList small).getD (trim text.toList))

/-- A document. -/
def html (m : Minifier library) (text : String) : String :=
  if m.enabled then shrink library text else text

/-- Style rules. -/
def css (m : Minifier library) (text : String) : String :=
  if m.enabled then shrinkInside library "style" text else text

/-- A script. -/
def script (m : Minifier library) (text : String) : String :=
  if m.enabled then shrinkInside library "script" text else text

end Minifier

end StaticSite
