import StaticSite.Data.Basic

/-!
# Node trees

A compiled template is a list of nodes: text, expressions, uses of components and slots. A use of a
component carries what is needed to render it, namely the component's name, its own data and its own
nodes; nodes are therefore complete and refer to nothing outside. An `Instance` is a component in
this form.
-/

namespace StaticSite

/-- What an attribute gives to the component it stands on. -/
inductive Binding where
  /-- a text -/
  | literal (value : String)
  /-- the value of an expression in the scope of the use -/
  | expression (source : String)
  /-- the value true -/
  | flag
  deriving DecidableEq, Repr

/-- A piece of a template. -/
inductive Node where
  /-- text that is copied -/
  | text (value : String)
  /-- an expression whose value is shown -/
  | expression (source : String)
  /-- a use of a component: its name, its own data and its own nodes, and what this use gives to
  it, attributes and children -/
  | component (name : String) (defaults : Fields) (body : List Node)
      (attributes : List (String × Binding)) (children : List Node)
  /-- the place of the children that a use of this component gives, with nodes in their stead -/
  | slot (fallback : List Node)

/-- A component that is ready to be rendered. -/
structure Instance where
  /-- the name under which errors are reported -/
  name : String
  /-- the data it has unless a use gives other data -/
  defaults : Fields
  /-- its template -/
  nodes : List Node

/-- The use of a component with attributes and children. -/
def Instance.use (i : Instance) (attributes : List (String × Binding)) (children : List Node) :
    Node :=
  .component i.name i.defaults i.nodes attributes children

/-- Why a template could not be compiled or rendered. Each cause names the component. -/
inductive RenderError where
  /-- two opening braces without the closing ones, at a byte offset -/
  | unclosedInterpolation (component : String) (offset : Nat)
  /-- a component or slot that is not closed -/
  | unclosedTag (component : String) (tag : String)
  /-- a closing tag of a component or slot that is not open -/
  | unexpectedClose (component : String) (tag : String)
  /-- an expression without a value -/
  | unknownBinding (component : String) (source : String)
  /-- data that is neither an object nor null -/
  | dataShape (component : String)
  /-- data that could not be computed, with the reason -/
  | dataFailed (component : String) (reason : String)
  deriving DecidableEq, Repr

/-- The wording of an error, without its cause. -/
def RenderError.display : RenderError → String
  | .unclosedInterpolation c offset =>
    "`" ++ c ++ "`: unclosed `\x7b\x7b` at byte " ++ toString offset
  | .unclosedTag c tag => "`" ++ c ++ "`: `<" ++ tag ++ ">` is never closed"
  | .unexpectedClose c tag => "`" ++ c ++ "`: unexpected `</" ++ tag ++ ">`"
  | .unknownBinding c source => "`" ++ c ++ "`: unknown binding `" ++ source ++ "`"
  | .dataShape c => "`" ++ c ++ "`: render data must be an object"
  | .dataFailed c _ => "`" ++ c ++ "`: render data callback failed"

/-- The causes below an error. -/
def RenderError.causes : RenderError → List String
  | .dataFailed _ reason => [reason]
  | _ => []

end StaticSite
