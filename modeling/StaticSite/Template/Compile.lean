import StaticSite.Template.Node
import StaticSite.Markup.OpeningTag

/-!
# Compiling a template

Of the tags of a template only the *special* ones mean anything: `slot` and the names of the
components at hand. Everything else is text, except that comments are dropped and that text between
double braces is an expression.

The compiler reads the template once from left to right. Its state, the `Builder`, holds the text
that is not yet split at its braces, the nodes of the element that is being read, and the elements
around it, the innermost first. Text is split whenever a special tag or the end is met, so that an
expression never reaches over a special tag.
-/

namespace StaticSite.Template

open Text Markup

/-- The components that a template may use, by the name of their tag. -/
abbrev Dependencies := Dict Instance

/-- An element whose closing tag is still to come, and the nodes in front of it. -/
structure OpenElement where
  /-- the name of its tag -/
  tag : String
  /-- the component that it uses; a slot uses none -/
  used? : Option Instance
  /-- its attributes -/
  attributes : List (String × Binding)
  /-- the nodes in front of the element, inside the one around it -/
  before : List Node

/-- What has been read of a template. -/
structure Builder where
  /-- text since the last special tag, from its end to its start -/
  pending : List Char := []
  /-- the nodes of the innermost open element -/
  nodes : List Node := []
  /-- the open elements, the innermost first -/
  opened : List OpenElement := []

/-- Whether a tag of this name is special. -/
def isSpecial (dependencies : Dependencies) (tag : String) : Bool :=
  tag == "slot" || (dependencies.get? tag).isSome

/-- The node of an element with its children. -/
def elementNode (used? : Option Instance) (attributes : List (String × Binding))
    (children : List Node) : Node :=
  match used? with
  | some i => i.use attributes children
  | none => .slot children

/-- What an attribute gives. A colon in front of the name makes its value an expression. -/
def bindingOf (a : Attribute) : String × Binding :=
  match a.name.toList, a.value? with
  | ':' :: name, some source => (String.ofList name, .expression source)
  | _, some value => (a.name, .literal value)
  | _, none => (a.name, .flag)

/-- A text node, unless there is no text. -/
def textNode (s : List Char) : List Node := if s = [] then [] else [.text (String.ofList s)]

/-- Text split into text and expressions. An error is the offset of two opening braces that are
never closed, counted from `offset` at the start of the text. -/
def splitText (offset : Nat) (s : List Char) : Except Nat (List Node) :=
  match _ho : cut? ['\x7b', '\x7b'] s with
  | none => .ok (textNode s)
  | some (before, inside) =>
    match _hc : cut? ['\x7d', '\x7d'] inside with
    | none => .error (offset + byteLength before)
    | some (source, rest) =>
      let next := offset + byteLength before + byteLength source + 4
      match splitText next rest with
      | .error e => .error e
      | .ok more => .ok (textNode before ++ .expression (String.ofList (trim source)) :: more)
termination_by s.length
decreasing_by
  have h₁ := length_of_cut? _ho
  have h₂ := length_of_cut? _hc
  simp only [List.length_cons, List.length_nil] at h₁ h₂
  omega

namespace Builder

/-- Text is read. -/
def push (b : Builder) (s : List Char) : Builder := { b with pending := s.reverse ++ b.pending }

/-- The pending text becomes nodes. -/
def flush (component : String) (b : Builder) : Except RenderError Builder :=
  match splitText 0 b.pending.reverse with
  | .ok nodes => .ok { b with pending := [], nodes := b.nodes ++ nodes }
  | .error offset => .error (.unclosedInterpolation component offset)

/-- A special opening tag is read. -/
def enter (component : String) (dependencies : Dependencies) (tag : OpeningTag) (b : Builder) :
    Except RenderError Builder := do
  let b ← b.flush component
  let used? := dependencies.get? tag.name
  let attributes := tag.attributes.map bindingOf
  if tag.selfClosing then
    return { b with nodes := b.nodes ++ [elementNode used? attributes []] }
  else
    return { b with nodes := [], opened := ⟨tag.name, used?, attributes, b.nodes⟩ :: b.opened }

/-- A special closing tag is read. It must close the innermost element. -/
def leave (component : String) (tag : String) (b : Builder) : Except RenderError Builder := do
  let b ← b.flush component
  match b.opened with
  | [] => throw (.unexpectedClose component tag)
  | element :: around =>
    if element.tag = tag then
      let node := elementNode element.used? element.attributes b.nodes
      return { b with nodes := element.before ++ [node], opened := around }
    else throw (.unexpectedClose component tag)

/-- The end of the template is read. Every element must be closed. -/
def finish (component : String) (b : Builder) : Except RenderError (List Node) := do
  let b ← b.flush component
  match b.opened with
  | [] => return b.nodes
  | element :: _ => throw (.unclosedTag component element.tag)

end Builder

/-- The name of a special closing tag at the start of a text, and what follows the tag. White space
around the name does not count. -/
def closingTag? (dependencies : Dependencies) (s : List Char) : Option (String × List Char) :=
  match (startsWith? ['<', '/'] s).bind (cut? ['>']) with
  | some (inside, rest) =>
    if isSpecial dependencies (String.ofList (trim inside)) then
      some (String.ofList (trim inside), rest)
    else none
  | none => none

theorem length_of_closingTag? {dependencies : Dependencies} {s r : List Char} {tag : String}
    (h : closingTag? dependencies s = some (tag, r)) : r.length < s.length := by
  rw [closingTag?] at h
  split at h
  · next inside rest hc =>
    obtain ⟨behind, hb, hc⟩ := Option.bind_eq_some_iff.1 hc
    have hs := congrArg List.length (startsWith?_eq_some.1 hb)
    have hr := length_of_cut? hc
    simp only [List.length_append, List.length_cons, List.length_nil] at hs hr
    split at h
    · cases h; omega
    · cases h
  · cases h

/-- Reads a template to its end. -/
def build (component : String) (dependencies : Dependencies) (b : Builder) (s : List Char) :
    Except RenderError Builder :=
  match s with
  | [] => .ok b
  | c :: t =>
    if c ≠ '<' then build component dependencies (b.push [c]) t
    else if (startsWith? "<!--".toList (c :: t)).isSome then
      match _hc : cut? "-->".toList (c :: t) with
      | some (_, rest) => build component dependencies b rest
      | none => .ok b
    else if t.head? = some '/' then
      match _hc : closingTag? dependencies (c :: t) with
      | some (tag, rest) =>
        match b.leave component tag with
        | .ok b => build component dependencies b rest
        | .error e => .error e
      | none => build component dependencies (b.push [c]) t
    else
      match _ht : readOpeningTag (c :: t) with
      | none => build component dependencies (b.push [c]) t
      | some (tag, rest) =>
        if isSpecial dependencies tag.name then
          match b.enter component dependencies tag with
          | .ok b => build component dependencies b rest
          | .error e => .error e
        else
          let whole := (c :: t).take ((c :: t).length - rest.length)
          build component dependencies (b.push whole) rest
termination_by s.length
decreasing_by
  · simp
  · have := length_of_cut? _hc
    simp at this ⊢
    omega
  · exact length_of_closingTag? _hc
  · simp
  · simp
  · exact length_of_readOpeningTag _ht
  · exact length_of_readOpeningTag _ht

/-- The nodes of a template, for a component that may use some others. -/
def compile (component : String) (dependencies : Dependencies) (template : String) :
    Except RenderError (List Node) := do
  let b ← build component dependencies {} template.toList
  b.finish component

end StaticSite.Template
