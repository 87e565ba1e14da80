import StaticSite.Component.Loader
import StaticSite.Minify.Basic
import StaticSite.Site.Assets
import StaticSite.Site.Document
import StaticSite.Site.Settings

/-!
# Pages

A page is a component file in the directory of pages. It becomes one document, or one for each of
its routes if its name has placeholders, words in brackets that a route gives values for. The
document of a page lies in a directory named like the page, as `index.html`; only a page that is
itself named `index` lies in the directory of its file.

`plan` finds out which documents there are to be and where, `render` makes one of them, and
`writePages` puts them into the output directory.
-/

namespace StaticSite

open Text

/-- A piece of a page's name. -/
inductive NamePiece where
  /-- a character that stands for itself -/
  | plain (c : Char)
  /-- a placeholder -/
  | placeholder (name : List Char)
  deriving DecidableEq, Repr

namespace NamePiece

/-- The placeholder at the start of a name, and what follows it. -/
def placeholderAt? : List Char → Option (List Char × List Char)
  | '[' :: s =>
    match s.dropWhile isWord with
    | ']' :: rest => if s.takeWhile isWord = [] then none else some (s.takeWhile isWord, rest)
    | _ => none
  | _ => none

theorem length_of_placeholderAt? {s name rest : List Char}
    (h : placeholderAt? s = some (name, rest)) : rest.length < s.length := by
  unfold placeholderAt? at h
  split at h
  · next t =>
    split at h
    · next hd =>
      split at h
      · simp at h
      · cases h
        have := (List.dropWhile_suffix (l := t) isWord).length_le
        rw [hd] at this
        simp only [List.length_cons] at this ⊢
        omega
    · simp at h
  · simp at h

/-- The pieces of a name, from left to right. -/
def ofName (s : List Char) : List NamePiece :=
  match s with
  | [] => []
  | c :: t =>
    match _h : placeholderAt? (c :: t) with
    | some (name, rest) => .placeholder name :: ofName rest
    | none => .plain c :: ofName t
termination_by s.length
decreasing_by
  · exact length_of_placeholderAt? _h
  · simp

/-- Whether a piece is a placeholder. -/
def isPlaceholder : NamePiece → Bool
  | .placeholder _ => true
  | .plain _ => false

end NamePiece

namespace Page

/-- Whether the name of a page has placeholders. -/
def isDynamic (source : Path) : Bool :=
  source.stem?.any fun stem => (NamePiece.ofName stem.toList).any (·.isPlaceholder)

/-- Whether a value can stand in the name of a directory without leading elsewhere. -/
def isSafeValue (value : String) : Bool :=
  let s := value.toList
  !(value == "" || value == "." || s.contains '/' || s.contains '\\' ||
    (cut? ['.', '.'] s).isSome)

/-- What a piece of a name becomes for a route. -/
def fillPiece (source : Path) (index : Nat) (params : Dict String) :
    NamePiece → Except BuildError (List Char)
  | .plain c => .ok [c]
  | .placeholder name =>
    let param := String.ofList name
    match Dict.get? param params with
    | none => .error (.missingRouteParam source param index)
    | some value =>
      if isSafeValue value then .ok value.toList
      else .error (.invalidRouteParam source param value index)

/-- The name of a page for a route. The values are put in as they are. -/
def fillName (source : Path) (index : Nat) (params : Dict String) (stem : String) :
    Except BuildError String := do
  let pieces ← (NamePiece.ofName stem.toList).mapM (fillPiece source index params)
  return String.ofList pieces.flatten

/-- Where the document of a page lies, for a route and its number if there is one. -/
def outputPath (pages output source : Path) (route? : Option (Nat × Route)) :
    Except BuildError Path := do
  let relative := source.relativeTo pages
  let dir := output.join (relative.parent?.getD ⟨""⟩)
  let stem := source.stem?.getD ""
  if stem = "index" then return dir.child "index.html"
  let (index, params) := match route? with
    | some (index, route) => (index, route.params)
    | none => (0, [])
  let name ← fillName source index params stem
  return (dir.child name).child "index.html"

end Page

/-- A document that is to be made. -/
structure PageJob where
  /-- the file of the page -/
  source : Path
  /-- where the document lies -/
  output : Path
  /-- the route, for a page with placeholders -/
  route? : Option Route
  /-- the page -/
  page : Component Instance

/-- What a build runs on: the library that makes documents smaller, and how its parallel loops go. -/
structure Runtime where
  /-- the library -/
  library : ByteArray → ByteArray := Minify.library
  /-- reading style sheets -/
  sheets : Schedule Path := .inOrder
  /-- reading components -/
  components : Schedule Path := .inOrder
  /-- reading pages -/
  pages : Schedule Path := .inOrder
  /-- rendering -/
  rendering : Schedule PageJob := .inOrder
  /-- writing documents -/
  writing : Schedule (Path × String) := .inOrder
  /-- copying assets -/
  copying : Schedule Path := .inOrder

/-- A site that is ready for its pages to be rendered. -/
structure Site where
  /-- how it is built -/
  settings : BuildSettings
  /-- its components, all with their instances -/
  registry : Registry Instance
  /-- its style sheets -/
  assets : AssetIndex
  /-- the library that makes documents smaller -/
  library : ByteArray → ByteArray := Minify.library
  /-- whether it is used -/
  minifier : Minifier library
  /-- the script that every document gets, if any -/
  script? : Option String := none

namespace Site

/-- Reads the assets and the components and takes the components through all passes. With a port,
every document gets the reload client for it. -/
def prepare (d : Disk) (settings : BuildSettings) (reloadPort? : Option Nat)
    (runtime : Runtime := {}) : Except BuildError Site := do
  let filters ← match settings.filters? with
    | some filters => pure filters
    | none => throw .styleFilter
  let assets ← AssetIndex.load d settings.assets (fun text => filters.any (·.isIn text))
    runtime.sheets
  let loaded ← Component.loadAll d settings.extension settings.components runtime.components
  let registry ← match loaded.prepare Template.instantiate with
    | (registry, .ok _) => pure registry
    | (_, .error e) => throw e
  let minifier : Minifier runtime.library := ⟨settings.minify⟩
  let script? := reloadPort?.map fun port => minifier.script (Document.reloadScript port)
  return { settings, registry, assets, library := runtime.library, minifier, script? }

/-! ## Planning -/

/-- The documents of one page. -/
def planPage (d : Disk) (settings : BuildSettings) (source : Path) :
    Except BuildError (List PageJob) := do
  let page ← Component.load d source
  if Page.isDynamic source then
    match page.exports.routes? with
    | none => throw (.missingRoutes source)
    | some routes =>
      routes.zipIdx.mapM fun (route, index) => do
        let output ← Page.outputPath settings.pages settings.output source (some (index, route))
        return ⟨source, output, some route, page⟩
  else
    let output ← Page.outputPath settings.pages settings.output source none
    return [⟨source, output, none, page⟩]

/-- Refuses two documents at one place. The first document whose place is taken is reported. -/
def checkOutputs (before : List PageJob) : List PageJob → Except BuildError Unit
  | [] => .ok ()
  | job :: jobs =>
    match before.find? fun earlier => earlier.output.same job.output with
    | some earlier => .error (.duplicateOutput job.output earlier.source job.source)
    | none => checkOutputs (before ++ [job]) jobs

/-- The documents of all pages, in the order of a walk and of their routes. The pages are read in
parallel. -/
def plan (d : Disk) (settings : BuildSettings) (runtime : Runtime := {}) :
    Except BuildError (List PageJob) := do
  let sources := Component.collect d settings.extension settings.pages
  let jobs := (← runtime.pages.collect (planPage d settings) sources).flatten
  checkOutputs [] jobs
  return jobs

/-! ## Rendering -/

/-- The components that a page uses by name, in order of first appearance. -/
def used (site : Site) (page : Component Instance) : List Nat :=
  site.registry.resolveTags page.tags

/-- The style sheets of a page: its own, then those of the components that it uses, each once. -/
def styleSheets (site : Site) (page : Component Instance) : List String :=
  distinct (page.exports.styles ++
    (site.used page).flatMap fun id => (site.registry.components[id]?.map (·.styles)).getD [])

/-- The style rules of a page. Style sheets come in the opposite order of their list, so that the
page's own come after those of components, and the style blocks of the page come last. -/
def pageStyles (site : Site) (job : PageJob) : Except BuildError String := do
  let sheets ← (site.styleSheets job.page).mapM fun style =>
    match site.assets.resolve? site.settings.root style with
    | some content => .ok content
    | none => .error (.missingAsset job.source style)
  let blocks := job.page.blocks.styles.map (·.content)
  return "".intercalate ((sheets.reverse ++ blocks).map (· ++ "\n"))

/-- The data that a page is rendered with. -/
def pageData (job : PageJob) : Except BuildError Data :=
  match job.page.exports.props? with
  | none => .ok (.object [])
  | some props =>
    match props.data (job.route?.getD {}) with
    | .ok data => .ok data
    | .error reason => .error (.render job.source (.dataFailed job.page.name reason))

/-- The document of a page. -/
def render (site : Site) (job : PageJob) : Except BuildError String := do
  site.registry.require .materialized
  let styles := site.minifier.css (← site.pageStyles job)
  let data ← pageData job
  let page := job.page
  let spec : Template.Spec Instance :=
    ⟨page.name, page.blocks.template, page.exports, site.registry.instancesOf (site.used page)⟩
  let body := do Template.render (← Template.instantiate spec) data
  match body with
  | .error e => throw (.render job.source e)
  | .ok body => return site.minifier.html (Document.assemble styles body site.script?)

end Site

/-! ## Writing -/

/-- Puts a document at its place, with the directories above it. -/
def writePage (d : Disk) (output : Path) (document : String) : Disk × Except BuildError Unit :=
  putFile d output (fun d => d.write output document.toUTF8) output

/-- Puts documents at their places. -/
def writePages (d : Disk) (documents : List (Path × String))
    (schedule : Schedule (Path × String) := .inOrder) : Disk × Except BuildError Unit :=
  schedule.forEach (fun d document => writePage d document.1 document.2) d documents

end StaticSite
