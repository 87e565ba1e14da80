import StaticSite.Component.Blocks
import StaticSite.Files.Path
import StaticSite.Template.Node
import StaticSite.Text.Visible

/-!
# Why a site cannot be built

Each cause names the file or the component that it is about.
-/

namespace StaticSite

open Text

/-- How far a registry of components has been processed. -/
inductive Stage where
  /-- components are entered -/
  | loaded
  /-- the components that each one uses are known -/
  | linked
  /-- no component uses itself, be it through others -/
  | checked
  /-- the style sheets of each component and of those that it uses are known -/
  | styled
  /-- each component has an instance -/
  | materialized
  deriving DecidableEq, Repr

namespace Stage

/-- The place of a stage in the order of processing. -/
def rank : Stage → Nat
  | .loaded => 0
  | .linked => 1
  | .checked => 2
  | .styled => 3
  | .materialized => 4

instance : LE Stage := ⟨fun a b => a.rank ≤ b.rank⟩

instance (a b : Stage) : Decidable (a ≤ b) := inferInstanceAs (Decidable (a.rank ≤ b.rank))

/-- The later one of two stages. -/
def later (a b : Stage) : Stage := if a ≤ b then b else a

/-- The name of a stage in messages. -/
def label : Stage → String
  | .loaded => "Loaded"
  | .linked => "Linked"
  | .checked => "Checked"
  | .styled => "Styled"
  | .materialized => "Materialized"

end Stage

/-- Why a site could not be built. -/
inductive BuildError where
  /-- two files define a component of one name -/
  | duplicateComponent (name : String) (first second : Path)
  /-- a page with placeholders in its name that lists no routes -/
  | missingRoutes (page : Path)
  /-- a route without a value for a placeholder -/
  | missingRouteParam (page : Path) (param : String) (index : Nat)
  /-- a route with a value that cannot be part of a name -/
  | invalidRouteParam (page : Path) (param : String) (value : String) (index : Nat)
  /-- two pages or routes that would write one file -/
  | duplicateOutput (output first second : Path)
  /-- a style filter that is no pattern -/
  | styleFilter
  /-- components that use each other in a circle, from one of them back to itself -/
  | cycle (names : List String)
  /-- a registry that is not processed far enough -/
  | notReady (expected actual : Stage)
  /-- a style sheet that is not among the assets -/
  | missingAsset (page : Path) (style : String)
  /-- a component that cannot be rendered -/
  | render (path : Path) (cause : RenderError)
  /-- a file that is no component -/
  | source (path : Path) (cause : SourceError)
  /-- a file that cannot be read or written -/
  | file (path : Path)
  deriving DecidableEq, Repr

namespace BuildError

/-- A path between backticks. -/
def ticked (p : Path) : String := "`" ++ p.text ++ "`"

/-- The start of a message about a route. -/
def aboutRoute (index : Nat) (page : Path) : String :=
  "route #" ++ toString index ++ " of " ++ ticked page

/-- The wording of an error, without its cause. -/
def display : BuildError → String
  | .duplicateComponent name first second =>
    "component `" ++ name ++ "` is defined twice: " ++ ticked first ++ " and " ++ ticked second
  | .missingRoutes page => "dynamic page " ++ ticked page ++ " does not export `paths`"
  | .missingRouteParam page param index =>
    aboutRoute index page ++ " has no value for `[" ++ param ++ "]`"
  | .invalidRouteParam page param value index =>
    aboutRoute index page ++ " has an invalid value " ++
      String.ofList (debugQuote value.toList) ++ " for `[" ++ param ++ "]`"
  | .duplicateOutput output first second =>
    ticked first ++ " and " ++ ticked second ++ " both write " ++ ticked output
  | .styleFilter => "invalid style filter"
  | .cycle names => "dependency cycle: " ++ " -> ".intercalate names
  | .notReady expected actual =>
    "component registry is " ++ actual.label ++ ", expected at least " ++ expected.label
  | .missingAsset page style =>
    "stylesheet `" ++ style ++ "` used by " ++ ticked page ++ " is not in the asset index"
  | .render path _ => "failed to render " ++ ticked path
  | .source path _ => "failed to parse " ++ ticked path
  | .file path => "I/O error at " ++ ticked path

/-- The causes below an error, the nearest first. -/
def causes : BuildError → List String
  | .render _ cause => cause.display :: cause.causes
  | .source _ cause => cause.display :: cause.causes
  | _ => []

end BuildError

end StaticSite
