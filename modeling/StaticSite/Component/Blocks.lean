import StaticSite.Markup.OpeningTag
import StaticSite.Literal.Fault

/-!
# The blocks of a component file

A component file is a sequence of top-level blocks, each an element with its own closing tag: one
`template`, at most one `script`, any number of `style` blocks, and blocks of other names, which
are read over. Names of blocks are compared without regard to case. Text, comments and
self-closing tags between the blocks mean nothing.

A block ends at the first closing tag of its name, except that templates may hold templates: there
the closing tags are counted against the opening ones.
-/

namespace StaticSite

open Text Markup

/-- Why a component file could not be read. -/
inductive SourceError where
  /-- a second block of a kind of which there may be one -/
  | duplicateBlock (name : String)
  /-- a block without its closing tag, named as it is spelled -/
  | unclosedBlock (tag : String)
  /-- no template -/
  | missingTemplate
  /-- a script that exports nothing -/
  | missingDefaultExport
  /-- an export that is no literal -/
  | literal (error : LiteralError)
  /-- an exported value of another shape than its key asks for -/
  | exportShape (key : String) (expected : String)
  deriving DecidableEq, Repr

/-- The wording of an error, its cause included where it has one. -/
def SourceError.display : SourceError → String
  | .duplicateBlock name => "more than one <" ++ name ++ "> block"
  | .unclosedBlock tag => "<" ++ tag ++ "> is never closed"
  | .missingTemplate => "missing <template> block"
  | .missingDefaultExport => "script has no `export default`"
  | .literal e => "invalid export: " ++ e.display
  | .exportShape key expected => "exported `" ++ key ++ "` must be " ++ expected

/-- The causes below an error. -/
def SourceError.causes : SourceError → List String
  | .literal e => [e.display]
  | _ => []

/-- A style block of a component file. -/
structure StyleBlock where
  /-- the style rules -/
  content : String
  /-- the value of the attribute `lang` -/
  lang? : Option String
  deriving DecidableEq, Repr

/-- The blocks of a component file that the library reads. -/
structure Blocks where
  /-- the markup -/
  template : String
  /-- the script, empty if there is none -/
  script : String := ""
  /-- the style blocks in the order of the file -/
  styles : List StyleBlock := []
  deriving DecidableEq, Repr

namespace Blocks

/-- What may follow the name in a closing tag. -/
def endsCloseName (c : Char) : Bool :=
  c == '>' || c == ' ' || c == '\t' || c == '\r' || c == '\n'

/-- What may follow the name in a tag of a template. -/
def endsTemplateName (c : Char) : Bool := endsCloseName c || c == '/'

/-- The text behind `start`, when the text starts with it but for the case of ASCII letters.
`start` is in lower case. -/
def startsWithFolded? : List Char → List Char → Option (List Char)
  | [], s => some s
  | _ :: _, [] => none
  | p :: ps, c :: s => if p = c.toLower then startsWithFolded? ps s else none

/-- The text behind the name of a closing tag, when there is one of this name. -/
def closeNameAt? (name : List Char) (s : List Char) : Option (List Char) :=
  (startsWithFolded? ('<' :: '/' :: name) s).filter fun r => r.head?.any endsCloseName

/-- Splits a text around the first closing tag of a name: the body before it and what follows it.
`none` if there is no such tag or if it has no end. -/
def cutClosing? (name : List Char) : List Char → Option (List Char × List Char)
  | [] => none
  | c :: s =>
    match closeNameAt? name (c :: s) with
    | some r => (cut? ['>'] r).map fun (_, rest) => ([], rest)
    | none => (cutClosing? name s).map fun (body, rest) => (c :: body, rest)

/-- The two directions of a tag. -/
inductive Direction where
  /-- an opening tag -/
  | opening
  /-- a closing tag -/
  | closing
  deriving DecidableEq, Repr

/-- The direction of the template tag at the start of a text and the text behind its name. -/
def templateTagAt? (s : List Char) : Option (Direction × List Char) :=
  let named (start : String) : Option (List Char) :=
    (startsWithFolded? start.toList s).filter fun r => r.head?.any endsTemplateName
  match named "</template" with
  | some r => some (.closing, r)
  | none => (named "<template").map fun r => (.opening, r)

theorem length_of_startsWithFolded? {start s r : List Char}
    (h : startsWithFolded? start s = some r) : s.length = start.length + r.length := by
  induction start generalizing s with
  | nil => cases h; simp
  | cons p ps ih =>
    cases s with
    | nil => simp [startsWithFolded?] at h
    | cons c s =>
      rw [startsWithFolded?] at h
      split at h
      · simp only [List.length_cons, ih h]; omega
      · simp at h

theorem length_of_templateTagAt? {s r : List Char} {d : Direction}
    (h : templateTagAt? s = some (d, r)) : r.length < s.length := by
  rw [templateTagAt?] at h
  dsimp only at h
  split at h
  · next hn =>
    cases h
    have := length_of_startsWithFolded? (Option.filter_eq_some_iff.1 hn).1
    simp at this
    omega
  · obtain ⟨t, hn, he⟩ := Option.map_eq_some_iff.1 h
    cases he
    have := length_of_startsWithFolded? (Option.filter_eq_some_iff.1 hn).1
    simp at this
    omega

/-- Splits a text around the closing tag of a template inside which it starts. `depth` counts the
inner templates that are open; an opening tag that closes itself opens none. -/
def cutTemplate? (depth : Nat) (s : List Char) : Option (List Char × List Char) :=
  match s with
  | [] => none
  | c :: t =>
    match _ht : templateTagAt? (c :: t) with
    | none => (cutTemplate? depth t).map fun (body, rest) => (c :: body, rest)
    | some (direction, r) =>
      match _hc : cut? ['>'] r with
      | none => none
      | some (inside, rest) =>
        let tag := (c :: t).take ((c :: t).length - rest.length)
        match direction, depth with
        | .closing, 0 => some ([], rest)
        | .closing, d + 1 => (cutTemplate? d rest).map fun (body, r) => (tag ++ body, r)
        | .opening, d =>
          let inner := if inside.getLast? = some '/' then d else d + 1
          (cutTemplate? inner rest).map fun (body, r) => (tag ++ body, r)
termination_by s.length
decreasing_by
  · simp
  all_goals
    have h₁ := length_of_templateTagAt? _ht
    have h₂ := length_of_cut? _hc
    omega

/-- The body of a block behind its opening tag, and what follows its closing tag. -/
def cutBody? (name : List Char) (s : List Char) : Option (List Char × List Char) :=
  if name = "template".toList then cutTemplate? 0 s else cutClosing? name s

/-- A top-level block as it stands in the file. -/
structure Block where
  /-- the opening tag -/
  tag : OpeningTag
  /-- the text up to the closing tag, without white space at its ends -/
  body : String

/-- The name of a block in lower case. -/
def Block.kind (b : Block) : List Char := lower b.tag.name.toList

theorem length_of_cutClosing? {name s body r : List Char} (h : cutClosing? name s = some (body, r)) :
    r.length < s.length := by
  induction s generalizing body with
  | nil => simp [cutClosing?] at h
  | cons c s ih =>
    rw [cutClosing?] at h
    split at h
    · next u hu =>
      obtain ⟨⟨_, rest⟩, hc, he⟩ := Option.map_eq_some_iff.1 h
      cases he
      have h₁ := length_of_startsWithFolded? (Option.filter_eq_some_iff.1 hu).1
      have h₂ := length_of_cut? hc
      simp only [List.length_cons, List.length_nil] at h₁ h₂ ⊢
      omega
    · obtain ⟨⟨_, rest⟩, hc, he⟩ := Option.map_eq_some_iff.1 h
      cases he
      have := ih hc
      simp only [List.length_cons]
      omega

theorem length_of_cutTemplate? {depth : Nat} {s body r : List Char}
    (h : cutTemplate? depth s = some (body, r)) : r.length < s.length := by
  fun_induction cutTemplate? depth s generalizing body with
  | case1 => simp at h
  | case2 depth c t ht ih =>
    obtain ⟨⟨b, rest⟩, hc, he⟩ := Option.map_eq_some_iff.1 h
    cases he
    have := ih hc
    simp only [List.length_cons]
    omega
  | case3 => simp at h
  | case4 c t _ _ rest hc _ ht =>
    cases h
    have h₁ := length_of_templateTagAt? ht
    have h₂ := length_of_cut? hc
    omega
  | case5 =>
    rename_i rest hc _ _ _ ht ih
    obtain ⟨⟨b, r'⟩, hr, he⟩ := Option.map_eq_some_iff.1 h
    cases he
    have h₁ := length_of_templateTagAt? ht
    have h₂ := length_of_cut? hc
    have h₃ := ih hr
    omega
  | case6 =>
    rename_i rest hc _ _ _ _ ht ih
    obtain ⟨⟨b, r'⟩, hr, he⟩ := Option.map_eq_some_iff.1 h
    cases he
    have h₁ := length_of_templateTagAt? ht
    have h₂ := length_of_cut? hc
    have h₃ := ih hr
    omega

theorem length_of_cutBody? {name s body r : List Char} (h : cutBody? name s = some (body, r)) :
    r.length < s.length := by
  rw [cutBody?] at h
  split at h
  · exact length_of_cutTemplate? h
  · exact length_of_cutClosing? h

/-- The top-level blocks of a text in order; the last entry is an error if a block has no end. -/
def topLevel (s : List Char) : List (Except SourceError Block) :=
  match s with
  | [] => []
  | c :: t =>
    if c ≠ '<' then topLevel t
    else if (startsWith? "<!--".toList (c :: t)).isSome then
      match _h : cut? "-->".toList (c :: t) with
      | some (_, rest) => topLevel rest
      | none => []
    else
      match _h : readOpeningTag (c :: t) with
      | none => topLevel t
      | some (tag, rest) =>
        if tag.selfClosing then topLevel rest
        else
          match _hb : cutBody? (lower tag.name.toList) rest with
          | none => [.error (.unclosedBlock tag.name)]
          | some (body, rest') => .ok ⟨tag, String.ofList (trim body)⟩ :: topLevel rest'
termination_by s.length
decreasing_by
  · simp
  · have := length_of_cut? _h
    simp at this ⊢
    omega
  · simp
  · exact length_of_readOpeningTag _h
  · have := length_of_readOpeningTag _h
    have := length_of_cutBody? _hb
    omega

/-- The blocks gathered so far. -/
structure Gathered where
  /-- the template, once met -/
  template? : Option String := none
  /-- the script, once met -/
  script? : Option String := none
  /-- the style blocks met -/
  styles : List StyleBlock := []

/-- Adds a block; blocks of other names are left out. -/
def Gathered.add (g : Gathered) (b : Block) : Except SourceError Gathered :=
  if b.kind = "template".toList then
    if g.template?.isSome then .error (.duplicateBlock "template")
    else .ok { g with template? := some b.body }
  else if b.kind = "script".toList then
    if g.script?.isSome then .error (.duplicateBlock "script")
    else .ok { g with script? := some b.body }
  else if b.kind = "style".toList then
    let lang := b.tag.attributes.find? fun a => lower a.name.toList = "lang".toList
    .ok { g with styles := g.styles ++ [⟨b.body, lang.bind (·.value?)⟩] }
  else .ok g

/-- The blocks of a component file. The first error in the order of the text is reported; a missing
template only if there is no other one. -/
def parse (raw : String) : Except SourceError Blocks := do
  let gathered ← (topLevel raw.toList).foldlM (fun g block => do g.add (← block)) ({} : Gathered)
  match gathered.template? with
  | some template => return ⟨template, gathered.script?.getD "", gathered.styles⟩
  | none => throw .missingTemplate

end Blocks

end StaticSite
