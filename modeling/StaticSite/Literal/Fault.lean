import StaticSite.Text.Quoted

/-!
# What can be wrong with a literal

A fault is the cause of a failed reading, a stop is a fault together with the text that was still
unread when it was met. Readers only ever see a rest of the text, so a stop is all they can tell;
`Stop.at` turns it into an error with a byte offset by comparing the rest with the whole.
-/

namespace StaticSite.Literal

open Text

/-- Why a literal could not be read. -/
inductive Fault where
  /-- a block comment without its end -/
  | unterminatedComment
  /-- a character was needed and another one, or none, was there -/
  | expected (wanted : Char) (found : Option Char)
  /-- a word that is not a value -/
  | notLiteral (word : List Char)
  /-- a character that starts no value -/
  | unexpected (found : Char)
  /-- no value at all -/
  | endOfInput
  /-- a key in brackets -/
  | computedKey
  /-- three dots -/
  | spread
  /-- a character that starts no key -/
  | unexpectedInObject (found : Char)
  /-- an object without its end -/
  | unterminatedObject
  /-- a key with a parameter list -/
  | method (key : List Char)
  /-- a key without a value -/
  | shorthand (key : List Char)
  /-- a list without its end -/
  | unterminatedArray
  /-- a string that the line or the text ends -/
  | unterminatedString
  /-- a value inside a template literal -/
  | substitution
  /-- a template literal without its end -/
  | unterminatedTemplate
  /-- a backslash at the end of the text -/
  | unterminatedEscape
  /-- an escape with a brace that is never closed -/
  | unterminatedUnicode
  /-- something else than a 32-bit hexadecimal number between the braces -/
  | badUnicode
  /-- too few hexadecimal digits -/
  | badHex
  /-- a number that is no character -/
  | badCodePoint (code : Nat)
  /-- digits of a base that make no 64-bit integer -/
  | badInteger
  /-- a numeral that makes no finite number -/
  | badNumber (numeral : List Char)
  deriving DecidableEq, Repr

/-- The wording of a fault. -/
def Fault.message : Fault → String
  | .unterminatedComment => "unterminated comment"
  | .expected wanted (some found) => "expected `" ++ wanted.toString ++ "`, found `" ++ found.toString ++ "`"
  | .expected wanted none => "expected `" ++ wanted.toString ++ "`, found end of input"
  | .notLiteral word => "`" ++ String.ofList word ++ "` is not a literal"
  | .unexpected found => "unexpected `" ++ found.toString ++ "`"
  | .endOfInput => "unexpected end of input"
  | .computedKey => "computed keys are not supported"
  | .spread => "spread is not supported"
  | .unexpectedInObject found => "unexpected `" ++ found.toString ++ "` in object"
  | .unterminatedObject => "unterminated object"
  | .method key => "method `" ++ String.ofList key ++ "` is not supported"
  | .shorthand key => "shorthand property `" ++ String.ofList key ++ "` is not supported"
  | .unterminatedArray => "unterminated array"
  | .unterminatedString => "unterminated string"
  | .substitution => "template substitutions are not supported"
  | .unterminatedTemplate => "unterminated template literal"
  | .unterminatedEscape => "unterminated escape"
  | .unterminatedUnicode => "unterminated unicode escape"
  | .badUnicode => "invalid unicode escape"
  | .badHex => "invalid hex escape"
  | .badCodePoint code => "invalid code point 0x" ++ String.ofList (hex code)
  | .badInteger => "invalid integer literal"
  | .badNumber numeral => "invalid number `" ++ String.ofList numeral ++ "`"

/-- A fault and the text that was unread when it was met. -/
structure Stop where
  /-- the cause -/
  fault : Fault
  /-- the text from the place of the fault on -/
  rest : List Char
  deriving DecidableEq, Repr

end StaticSite.Literal

namespace StaticSite

/-- A fault at a byte offset of a text. -/
structure LiteralError where
  /-- the wording of the cause -/
  message : String
  /-- where it is, in bytes -/
  offset : Nat
  deriving DecidableEq, Repr

/-- The cause and its place in one line. -/
def LiteralError.display (e : LiteralError) : String :=
  e.message ++ " at byte " ++ toString e.offset

/-- The error of a stop in a text: its offset is what the whole has before the unread rest. -/
def Literal.Stop.at (whole : List Char) (stop : Literal.Stop) : LiteralError :=
  ⟨stop.fault.message, Text.byteLength whole - Text.byteLength stop.rest⟩

end StaticSite
