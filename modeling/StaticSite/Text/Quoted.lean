import StaticSite.Text.Span

/-!
# Quoted text

`jsonQuote` writes a text as a JSON string: the quote and the backslash are escaped, the five
control characters that have a short escape use it, the other ones below U+0020 are written with
four hexadecimal digits, and every other character stands for itself.
-/

namespace StaticSite.Text

/-- A digit in lower case, for values below 36. -/
def digitChar (n : Nat) : Char :=
  if n < 10 then Char.ofNat (48 + n) else Char.ofNat (87 + n)

/-- The digits of a natural number in a base from 2 to 36, without leading zeros. -/
def digitsIn (base n : Nat) : List Char :=
  go n []
where
  /-- Puts the digits of `n` in front of `acc`. -/
  go (n : Nat) (acc : List Char) : List Char :=
    if _h : 2 ≤ base ∧ base ≤ n then go (n / base) (digitChar (n % base) :: acc)
    else digitChar n :: acc
  termination_by n
  decreasing_by exact Nat.div_lt_self (by omega) (by omega)

/-- A natural number in hexadecimal, in lower case. -/
def hex (n : Nat) : List Char := digitsIn 16 n

/-- Zeros in front, up to a given width. -/
def padZero (width : Nat) (s : List Char) : List Char :=
  List.replicate (width - s.length) '0' ++ s

/-- One character inside a JSON string. -/
def jsonEscape (c : Char) : List Char :=
  if c = '\x22' then ['\\', '\x22']
  else if c = '\\' then ['\\', '\\']
  else if c = '\x08' then ['\\', 'b']
  else if c = '\x0c' then ['\\', 'f']
  else if c = '\n' then ['\\', 'n']
  else if c = '\r' then ['\\', 'r']
  else if c = '\t' then ['\\', 't']
  else if c.toNat < 0x20 then ['\\', 'u'] ++ padZero 4 (hex c.toNat)
  else [c]

/-- A text as a JSON string. -/
def jsonQuote (s : List Char) : List Char :=
  '\x22' :: s.flatMap jsonEscape ++ ['\x22']

end StaticSite.Text
