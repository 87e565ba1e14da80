import StaticSite.Number.Basic
import StaticSite.Text.Span

/-!
# The layout of terminal output

A line of output starts with a label in brackets, coloured by what it is about. A message on one
line is cut to what is left of the terminal's width, counted in bytes. A progress bar has the label,
a bar and a count, and its width is what these leave over, within bounds.
-/

namespace StaticSite.Terminal

open Text

/-- A control sequence. -/
def control (s : String) : String := "\x1b[" ++ s

/-- A number in decimal digits. -/
def decimal (n : Nat) : String := String.ofList (Number.intText n)

/-- Moves the cursor up. -/
def up (lines : Nat) : String := control (decimal lines ++ "A")

/-- Moves the cursor down. -/
def down (lines : Nat) : String := control (decimal lines ++ "B")

/-- Clears the line of the cursor. -/
def clearLine : String := control "2K"

/-- Clears from the cursor to the end of its line. -/
def clearRest : String := control "K"

/-- Clears from the cursor to the end of the screen. -/
def clearBelow : String := control "J"

/-- The colours of labels. -/
inductive Colour where
  /-- for what is served -/
  | blue
  /-- for what is watched -/
  | green
  /-- for errors -/
  | red
  /-- for all else -/
  | yellow
  deriving DecidableEq, Repr

/-- The code of a colour in its bright variant. -/
def Colour.code : Colour → String
  | .blue => "94"
  | .green => "92"
  | .red => "91"
  | .yellow => "93"

/-- The colour of a label. Letter case does not count. -/
def Colour.ofLabel (label : String) : Colour :=
  let s := lower label.toList
  if s = "serve".toList ∨ s = "reload".toList then .blue
  else if s = "watch".toList ∨ s = "dev".toList then .green
  else if s = "error".toList then .red
  else .yellow

/-- A label in brackets. -/
def bracketed (label : String) : String := "[" ++ label ++ "]"

/-- A label in brackets, bold and coloured. -/
def coloured (label : String) : String :=
  control ("1;" ++ (Colour.ofLabel label).code ++ "m") ++ bracketed label ++ control "0m"

/-- The length of a label with its brackets and the blank behind them, in bytes. -/
def labelLength (label : String) : Nat := byteLength label.toList + 3

/-- The least width of a bar. -/
def minBarWidth : Nat := 10

/-- The greatest width of a bar. -/
def maxBarWidth : Nat := 40

/-- The width of a bar: what the label, the count, the brackets around the bar and two blanks leave
over, within bounds. -/
def barWidth (width labelLength countLength : Nat) : Nat :=
  min maxBarWidth (max minBarWidth (width - (labelLength + 4 + countLength)))

/-- The part of a text that fits into a number of bytes, in whole characters. -/
def fit (bytes : Nat) (text : String) : String := String.ofList (takeBytes bytes text.toList)

/-- A message as it is shown behind a label: cut to the width of the terminal, unless it has several
lines. -/
def shown (width : Nat) (label message : String) : String :=
  if message.toList.contains '\n' then message else fit (width - labelLength label) message

/-- A line of output without colours. -/
def plainLine (width : Nat) (label message : String) : String :=
  bracketed label ++ " " ++ shown width label message

end StaticSite.Terminal
