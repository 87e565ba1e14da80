import StaticSite.Literal.Quoted
import StaticSite.Text.Span

/-!
# Addresses

An interface is named by its address. An address of version 4 is four numbers below 256 with dots
between them. An address of version 6 is eight groups of hexadecimal digits with colons between
them; two colons stand for one or more groups that are zero, and the last two groups may be written
as an address of version 4.
-/

namespace StaticSite.Address

open Text Literal

/-- A number below 256, without a zero in front. -/
def isOctet (s : List Char) : Bool :=
  !s.isEmpty && s.length ≤ 3 && s.all (·.isDigit) && (s.length == 1 || s.head? != some '0') &&
    s.foldl (fun n c => 10 * n + (c.toNat - 48)) 0 ≤ 255

/-- An address of version 4. -/
def isV4 (s : List Char) : Bool :=
  let parts := splitOn '.' s
  parts.length == 4 && parts.all isOctet

/-- Up to four hexadecimal digits. -/
def isGroup (s : List Char) : Bool :=
  !s.isEmpty && s.length ≤ 4 && s.all fun c => (hexValue? c).isSome

/-- How many groups a row of them writes; `none` if it is none. Only the last may be an address of
version 4, which counts for two, and this only where `mixed` allows it. -/
def groups? (mixed : Bool) (s : List Char) : Option Nat :=
  if s = [] then some 0
  else
    let parts := splitOn ':' s
    match parts.getLast? with
    | none => none
    | some last =>
      if !parts.dropLast.all isGroup then none
      else if isGroup last then some parts.length
      else if mixed && isV4 last then some (parts.length + 1)
      else none

/-- An address of version 6. -/
def isV6 (s : List Char) : Bool :=
  match cut? [':', ':'] s with
  | none => groups? true s == some 8
  | some (front, back) =>
    match groups? false front, groups? true back with
    | some m, some n => m + n ≤ 7
    | _, _ => false

/-- Whether a text is an address. -/
def isAddress (text : String) : Bool := isV4 text.toList || isV6 text.toList

end StaticSite.Address
