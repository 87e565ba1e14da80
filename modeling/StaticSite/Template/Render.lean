import StaticSite.Component.Exports
import StaticSite.Data.Json
import StaticSite.Template.Compile
import StaticSite.Template.Expression

/-!
# Rendering

Rendering walks a node tree with a scope, the data that the expressions of this template see. A use
of a component is rendered in a scope of its own, made of the component's data and what the
attributes give; its children are rendered in the scope of the use, before the component is, and
their text is what the slots of the component show. Slots among the children themselves have no
children to show and fall back.

Every value goes through `escape`, which leaves no angle bracket and no quote in it.
-/

namespace StaticSite.Template

/-- A character of a shown value. -/
def escapeChar (c : Char) : List Char :=
  if c = '&' then "&amp;".toList
  else if c = '<' then "&lt;".toList
  else if c = '>' then "&gt;".toList
  else if c = '\x22' then "&quot;".toList
  else if c = '\x27' then "&#39;".toList
  else [c]

/-- A text without characters that mean something to markup. -/
def escape (s : List Char) : List Char := s.flatMap escapeChar

/-- The text of a value, before escaping: text is itself, null is nothing, and all else is written
as JSON. -/
def plainText : Data → List Char
  | .null => []
  | .text s => s.toList
  | d => d.json

/-- The value of an expression, or the error that names it. -/
def evaluate (component : String) (scope : Fields) (source : String) : Except RenderError Data :=
  match evaluate? scope source with
  | some value => .ok value
  | none => .error (.unknownBinding component source)

/-- What an attribute gives, evaluated. -/
def Binding.value (component : String) (scope : Fields) : Binding → Except RenderError Data
  | .literal s => .ok (.text s)
  | .expression source => evaluate component scope source
  | .flag => .ok (.bool true)

/-- The scope of a used component: its own data, and over it what the attributes give. -/
def useScope (component : String) (scope : Fields) (defaults : Fields)
    (attributes : List (String × Binding)) : Except RenderError Fields :=
  attributes.foldlM
    (fun inner (name, binding) => do
      return Dict.insert name (← Binding.value component scope binding) inner)
    defaults

/-- What the slots of a component show: nothing was given, or text, unless rendering it failed. -/
abbrev SlotContent := Option (Except RenderError (List Char))

mutual

/-- The text of one node. -/
def renderNode (component : String) (scope : Fields) (content : SlotContent) :
    Node → Except RenderError (List Char)
  | .text s => .ok s.toList
  | .expression source => do return escape (plainText (← evaluate component scope source))
  | .component name defaults body attributes children => do
    let inner ← useScope component scope defaults attributes
    let given : SlotContent :=
      if children.isEmpty then none else some (renderNodes component scope none children)
    renderNodes name inner given body
  | .slot fallback =>
    match content with
    | some text => text
    | none => renderNodes component scope none fallback

/-- The text of nodes, one after the other. -/
def renderNodes (component : String) (scope : Fields) (content : SlotContent) :
    List Node → Except RenderError (List Char)
  | [] => .ok []
  | node :: nodes => do
    let first ← renderNode component scope content node
    let rest ← renderNodes component scope content nodes
    return first ++ rest

end

/-- The text of an instance for given data, which is laid over the data of the instance. -/
def render (i : Instance) (data : Data) : Except RenderError String := do
  let scope : Fields ← match data with
    | .object fields => pure (Dict.insertAll i.defaults fields)
    | .null => pure i.defaults
    | _ => throw (.dataShape i.name)
  return String.ofList (← renderNodes i.name scope none i.nodes)

/-- What is needed to make an instance of a component. -/
structure Spec (I : Type) where
  /-- the name of the component -/
  name : String
  /-- its template -/
  template : String
  /-- its exports -/
  exports : Exports
  /-- the instances of the components that it may use, by the name of their tag -/
  dependencies : Dict I

/-- The data that a component has of itself: what it exports for the empty route. -/
def ownData (name : String) (exports : Exports) : Except RenderError Fields :=
  match exports.props? with
  | none => .ok []
  | some props =>
    match props.data {} with
    | .ok (.object fields) => .ok fields
    | .ok .null => .ok []
    | .ok _ => .error (.dataShape name)
    | .error reason => .error (.dataFailed name reason)

/-- The instance of a component. -/
def instantiate (spec : Spec Instance) : Except RenderError Instance := do
  let defaults ← ownData spec.name spec.exports
  let nodes ← compile spec.name spec.dependencies spec.template
  return ⟨spec.name, defaults, nodes⟩

end StaticSite.Template
