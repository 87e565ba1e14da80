import StaticSite.Component.Blocks
import StaticSite.Literal.Reader
import StaticSite.Text.Word

/-!
# What a component exports

The script of a component says `export default` and then a literal object. Nothing is run: code in
front of the export is not looked at, and behind it only a semicolon, white space and comments may
stand. Of the object, four keys are read, in the order `name`, `css` (or `styles`), `props`,
`paths`; the first one of a wrong shape is reported.
-/

namespace StaticSite

open Text Literal

/-- A route of a dynamic page: values for the placeholders in its name, and data of its own. The
route of a page that is not dynamic has neither. -/
structure Route where
  /-- values by the name of the placeholder -/
  params : Dict String := []
  /-- data that is laid over the data of the page -/
  props : Fields := []
  deriving Repr, Inhabited

/-- Where the render data of a component comes from. -/
inductive PropSource where
  /-- fields that the component file states -/
  | fixed (fields : Fields)
  /-- data that is computed for a route, which can fail -/
  | computed (run : Route → Except String Data)

/-- The data for a route. Stated fields come first, then the values of the route under the name
`params`, then the data of the route, each over what was there. -/
def PropSource.data : PropSource → Route → Except String Data
  | .fixed fields, route =>
    let params := Data.object (route.params.map fun (name, value) => (name, .text value))
    .ok (.object ((Dict.insert "params" params fields).insertAll route.props))
  | .computed run, route => run route

/-- What a component exports. -/
structure Exports where
  /-- a name for display -/
  name? : Option String := none
  /-- paths of style sheets, in the order of the file -/
  styles : List String := []
  /-- the render data, if the component has any -/
  props? : Option PropSource := none
  /-- the routes of a dynamic page, if it lists them -/
  routes? : Option (List Route) := none

namespace Exports

/-! ## Shapes -/

/-- The shape that `css` must have. -/
def stylesShape : String := "a string or an array of strings"

/-- The shape that `paths` must have inside. -/
def routesShape : String := "an array of `\x7b params: \x7b … \x7d, props: \x7b … \x7d \x7d` records"

/-- The exported name. -/
def nameOf : Option Data → Except SourceError (Option String)
  | none | some .null => .ok none
  | some (.text s) => .ok (some s)
  | some _ => .error (.exportShape "name" "a string")

/-- The exported style sheets: one path or a list of paths. -/
def stylesOf : Option Data → Except SourceError (List String)
  | none | some .null => .ok []
  | some (.text path) => .ok [path]
  | some (.list items) => items.mapM fun
    | .text path => .ok path
    | _ => .error (.exportShape "css" stylesShape)
  | some _ => .error (.exportShape "css" stylesShape)

/-- The exported render data. -/
def propsOf : Option Data → Except SourceError (Option PropSource)
  | none | some .null => .ok none
  | some (.object fields) => .ok (some (.fixed fields))
  | some _ => .error (.exportShape "props" "an object")

/-- The value of a placeholder; numbers and truth values are written out. -/
def paramOf : Data → Except SourceError String
  | .text s => .ok s
  | .number n => .ok (String.ofList n.text)
  | .bool b => .ok (if b then "true" else "false")
  | _ => .error (.exportShape "paths" routesShape)

/-- The values of a route's placeholders. -/
def paramsOf : Option Data → Except SourceError (Dict String)
  | none | some .null => .ok []
  | some (.object fields) => fields.mapM fun (name, value) => do return (name, ← paramOf value)
  | some _ => .error (.exportShape "paths" routesShape)

/-- The data of a route. -/
def routePropsOf : Option Data → Except SourceError Fields
  | none | some .null => .ok []
  | some (.object fields) => .ok fields
  | some _ => .error (.exportShape "paths" routesShape)

/-- A route record. -/
def routeOf : Data → Except SourceError Route
  | .object record => do
    let params ← paramsOf (Dict.get? "params" record)
    let props ← routePropsOf (Dict.get? "props" record)
    return ⟨params, props⟩
  | _ => .error (.exportShape "paths" routesShape)

/-- The exported routes. -/
def routesOf : Option Data → Except SourceError (Option (List Route))
  | none | some .null => .ok none
  | some (.list records) => do return some (← records.mapM routeOf)
  | some _ => .error (.exportShape "paths" "an array")

/-- The exports that an object states. The key `css` hides the key `styles`. -/
def ofFields (fields : Fields) : Except SourceError Exports := do
  let name ← nameOf (Dict.get? "name" fields)
  let styles ← stylesOf ((Dict.get? "css" fields).or (Dict.get? "styles" fields))
  let props ← propsOf (Dict.get? "props" fields)
  let routes ← routesOf (Dict.get? "paths" fields)
  return ⟨name, styles, props, routes⟩

/-! ## The script -/

/-- The text behind `export default` when it stands at the start of a text, as whole words with
white space between them. -/
def exportAt? (s : List Char) : Option (List Char) := do
  let afterExport ← startsWith? "export".toList s
  let afterBlank := trimStart afterExport
  guard (afterBlank.length < afterExport.length)
  let rest ← startsWith? "default".toList afterBlank
  guard (!rest.head?.any isWord)
  return rest

/-- The text behind the first `export default`. `inWord` tells whether the character before is
part of a word, in which case no other word can start. -/
def findExport? (inWord : Bool) : List Char → Option (List Char)
  | [] => none
  | c :: s =>
    match if inWord then none else exportAt? (c :: s) with
    | some rest => some rest
    | none => findExport? (isWord c) s

/-- The text behind one semicolon and the white space and comments around it. -/
def skipEnd (s : List Char) : Except Stop (List Char) := do
  match ← skipTrivia s with
  | ';' :: t => skipTrivia t
  | t => return t

/-- The literal that a script exports, from the text behind `export default` on, with what follows
the end of the statement. -/
def readExport (s : List Char) : Except Stop (Data × List Char) := do
  let (value, rest) ← value? s
  return (value, ← skipEnd rest)

/-- The exports of a script. A blank script exports nothing and is no error. -/
def parse (script : String) : Except SourceError Exports :=
  let whole := script.toList
  if trim whole = [] then .ok {}
  else
    match findExport? false whole with
    | none => .error .missingDefaultExport
    | some s =>
      match readExport s with
      | .error stop => .error (.literal (stop.at whole))
      | .ok (value, []) =>
        match value with
        | .object fields => ofFields fields
        | _ => .error (.exportShape "default" "an object")
      | .ok (_, rest) =>
        .error (.literal ⟨"unexpected code after `export default`",
          byteLength whole - byteLength rest⟩)

end Exports

end StaticSite
