import StaticSite.Files.Path
import StaticSite.Text.Span

/-!
# Reading a command line

A command line is a row of words. Some name options, some are values of options, one may name a
command that takes over the words behind it, and the rest are operands. A `Grammar` says which
options, commands and operand there are; `Grammar.read` takes the words apart.

An option's value is looked at only when the next option, operand or the end is met. So of two
faults the one that is noticed first is reported, which need not be the one that stands first.
-/

namespace StaticSite.Command

/-- Why a command line is not understood, or that it only asks for a text. -/
inductive UsageError where
  /-- the help text is asked for -/
  | help
  /-- the version is asked for -/
  | version
  /-- there is nothing on the command line -/
  | nothing
  /-- there are options but no command -/
  | noCommand
  /-- there is no such command -/
  | unknownCommand
  /-- there is no such option, or an operand too many -/
  | unknownArgument
  /-- a value is missing or not among those that are possible -/
  | badValue
  /-- a number is none or out of range -/
  | badNumber
  /-- an option is given twice -/
  | givenTwice
  /-- a value is given to an option that has none -/
  | unwantedValue
  deriving DecidableEq, Repr

/-- What a value has to be. -/
inductive ValueKind where
  /-- a path, which is not empty -/
  | path
  /-- any text -/
  | text
  /-- a port -/
  | port
  /-- a truth value, true if it is left out -/
  | truth
  deriving DecidableEq, Repr

/-- A value on the command line. -/
inductive Value where
  /-- a path -/
  | path (p : Path)
  /-- a text -/
  | text (s : String)
  /-- a port -/
  | port (n : Nat)
  /-- a truth value -/
  | truth (b : Bool)
  deriving DecidableEq, Repr

/-- The number that decimal digits write, of which there is at least one. -/
def digits? (s : List Char) : Option Nat :=
  if s = [] then none
  else s.foldlM (fun n c => if c.isDigit then some (10 * n + (c.toNat - 48)) else none) 0

/-- The port that a word writes, with or without a sign. -/
def port? (s : List Char) : Option Nat :=
  let n? : Option Nat := match s with
    | '+' :: t => digits? t
    | '-' :: t => (digits? t).filter (· = 0)
    | t => digits? t
  n?.filter (· < 65536)

/-- The value that a word writes. -/
def ValueKind.read (kind : ValueKind) (word : String) : Except UsageError Value :=
  match kind with
  | .path => if word = "" then .error .badValue else .ok (.path ⟨word⟩)
  | .text => .ok (.text word)
  | .port =>
    match port? word.toList with
    | some n => .ok (.port n)
    | none => .error .badNumber
  | .truth =>
    if word = "true" then .ok (.truth true)
    else if word = "false" then .ok (.truth false)
    else .error .badValue

/-- An option, or an operand. -/
structure Slot where
  /-- its name -/
  name : String
  /-- its short name -/
  short? : Option Char := none
  /-- what its value has to be -/
  kind : ValueKind := .path
  deriving DecidableEq, Repr

/-- What can stand on a command line. -/
structure Grammar where
  /-- the options -/
  options : List Slot := []
  /-- the operand -/
  operand? : Option Slot := none
  /-- the commands -/
  commands : List String := []
  /-- whether the version can be asked for -/
  hasVersion : Bool := false

/-- How far a command line has been read. -/
structure Progress where
  /-- the values that have been looked at -/
  given : List (String × Value) := []
  /-- a slot whose value has not been looked at, with the value if there is one -/
  pending? : Option (Slot × Option String) := none
  /-- whether only operands can follow -/
  closed : Bool := false
  deriving Inhabited

namespace Progress

/-- Whether a slot waits for its value. -/
def isWaiting (p : Progress) : Bool := !p.closed && p.pending?.any fun (_, word?) => word?.isNone

/-- Whether a slot has been met. -/
def hasMet (p : Progress) (slot : Slot) : Bool :=
  (p.given.lookup slot.name).isSome || p.pending?.any fun (s, _) => s.name = slot.name

/-- Looks at the value that has not been looked at. -/
def settle (p : Progress) : Except UsageError Progress :=
  match p.pending? with
  | none => .ok p
  | some (slot, word?) => do
    let word ← match word?, slot.kind with
      | some word, _ => pure word
      | none, .truth => pure "true"
      | none, _ => throw .badValue
    if (p.given.lookup slot.name).isSome then throw .givenTwice
    let v ← slot.kind.read word
    return { p with given := p.given ++ [(slot.name, v)], pending? := none }

/-- Meets an option, with the value that is attached to it if there is one. -/
def meet (p : Progress) (slot : Slot) (attached? : Option String) : Except UsageError Progress := do
  let p ← p.settle
  let p := { p with pending? := some (slot, attached?) }
  if attached?.isSome then p.settle else return p

/-- Meets an option that only asks for a text. -/
def ask (p : Progress) (what : UsageError) : Except UsageError Progress := do
  let _ ← p.settle
  throw what

end Progress

/-- What a word looks like. -/
inductive Shape where
  /-- two hyphens: only operands follow -/
  | close
  /-- a long option, and what is behind its equals sign -/
  | long (name : String) (attached? : Option String)
  /-- a short option, and what is behind it -/
  | short (name : Char) (rest : List Char)
  /-- no option -/
  | plain
  deriving DecidableEq, Repr

/-- What a word looks like. -/
def Shape.of : List Char → Shape
  | ['-', '-'] => .close
  | '-' :: '-' :: s =>
    match Text.cut? ['='] s with
    | some (name, value) => .long (String.ofList name) (some (String.ofList value))
    | none => .long (String.ofList s) none
  | '-' :: c :: s => .short c s
  | _ => .plain

/-- The value that is attached to a short option, with or without an equals sign. -/
def attachedTo : List Char → Option String
  | [] => none
  | '=' :: s => some (String.ofList s)
  | s => some (String.ofList s)

/-- How the reading of a command line ends. -/
inductive Reading where
  /-- with the last word -/
  | finished (p : Progress)
  /-- with a command, to which the words behind it belong -/
  | command (name : String) (words : List String) (p : Progress)

namespace Grammar

/-- Meets a long option. -/
def takeLong (g : Grammar) (p : Progress) (name : String) (attached? : Option String) :
    Except UsageError Progress :=
  let asks := if name = "help" then some UsageError.help
    else if name = "version" ∧ g.hasVersion then some UsageError.version
    else none
  match asks, g.options.find? (·.name = name) with
  | some what, _ => if attached?.isSome then .error .unwantedValue else p.ask what
  | none, some slot => p.meet slot attached?
  | none, none => .error .unknownArgument

/-- Meets a short option. -/
def takeShort (g : Grammar) (p : Progress) (name : Char) (rest : List Char) :
    Except UsageError Progress :=
  if name = 'h' then p.ask .help
  else if name = 'V' ∧ g.hasVersion then p.ask .version
  else match g.options.find? (·.short? = some name) with
    | some slot => p.meet slot (attachedTo rest)
    | none => .error .unknownArgument

/-- Meets a word that is no option. -/
def takeOperand (g : Grammar) (p : Progress) (word : String) : Except UsageError Progress :=
  match g.operand?.filter (!p.hasMet ·) with
  | some slot => do
    let p ← p.settle
    return { p with pending? := some (slot, some word) }
  | none =>
    if g.commands = [] ∨ (p.closed ∧ g.commands.contains word) then .error .unknownArgument
    else .error .unknownCommand

/-- Meets any word that names no command. -/
def take (g : Grammar) (p : Progress) (word : String) : Except UsageError Progress :=
  if p.closed then g.takeOperand p word
  else match Shape.of word.toList with
    | .close => .ok { p with closed := true }
    | .long name attached? => g.takeLong p name attached?
    | .short name rest => g.takeShort p name rest
    | .plain =>
      match p.isWaiting, p.pending? with
      | true, some (slot, _) => .ok { p with pending? := some (slot, some word) }
      | _, _ => g.takeOperand p word

/-- Reads words up to the first that names a command, or to the end. -/
def read (g : Grammar) (p : Progress) : List String → Except UsageError Reading
  | [] => .ok (.finished p)
  | word :: words =>
    if !p.closed && !p.isWaiting && g.commands.contains word then .ok (.command word words p)
    else match g.take p word with
      | .ok p => g.read p words
      | .error e => .error e

/-- Reads words that name no further command. -/
def readAll (g : Grammar) (words : List String) : Except UsageError Progress := do
  match ← g.read {} words with
  | .finished p => p.settle
  | .command _ _ _ => throw .unknownArgument

end Grammar

end StaticSite.Command
