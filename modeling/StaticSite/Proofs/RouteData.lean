import StaticSite.Proofs.InOrder
import StaticSite.Site.Pages

/-!
# What a page sees of its route

A page is rendered in a scope that is put together from its own data and that of its route. The fields
that the page states come first, then the placeholders under the name `params`, then the data of the
route; and all of it is laid over what the page has of itself, which is the same for no route at all
(`get?_statedScope`).

All this goes through the fields that a page states. A page that states none, not even an empty object,
is rendered in an empty scope, whatever its route has.
-/

namespace StaticSite

/-! ## Scopes -/

/-- The object of the values of a route's placeholders. -/
def Route.paramsData (route : Route) : Data :=
  .object (route.params.map fun (name, value) => (name, .text value))

/-- Stated fields for a route: under `params` its placeholders, and over all of it its data. -/
def statedFor (own : Fields) (route : Route) : Fields :=
  (Dict.insert "params" route.paramsData own).insertAll route.props

/-- The scope of a page that states fields: those for its route over those for no route. -/
def statedScope (own : Fields) (route : Route) : Fields :=
  (statedFor own {}).insertAll (statedFor own route)

section

variable {own : Fields} {route : Route}

theorem get?_statedFor (hprops : Dict.Ascending route.props) (name : String) :
    Dict.get? name (statedFor own route) = (Dict.get? name route.props).or
      (if name = "params" then some route.paramsData else Dict.get? name own) := by
  rw [statedFor, Dict.get?_insertAll_of_ascending hprops, Dict.get?_insert]

/-- **The scope of a page, name by name**: what the route has, or else its placeholders under their
name, or else what the page states. The fields for no route show nowhere. -/
theorem get?_statedScope (hown : Dict.Ascending own) (hprops : Dict.Ascending route.props)
    (name : String) : Dict.get? name (statedScope own route) = (Dict.get? name route.props).or
      (if name = "params" then some route.paramsData else Dict.get? name own) := by
  have hnames : Dict.Ascending (statedFor own route) :=
    Dict.ascending_insertAll (Dict.ascending_insert hown _ _) _
  have hnone : Dict.get? name (statedFor own {}) =
      if name = "params" then some (Route.paramsData {}) else Dict.get? name own := by
    have hroute : Dict.Ascending (Route.props {}) := List.Pairwise.nil
    rw [get?_statedFor hroute, Dict.get?, Option.none_or]
  rw [statedScope, Dict.get?_insertAll_of_ascending hnames, get?_statedFor hprops, hnone,
    Option.or_assoc]
  congr 1
  split
  · rfl
  · rw [Option.or_self]

end

namespace Template

/-- What data that is laid over fields makes of them; `none` if it is neither an object nor null. -/
def laid? (own : Fields) : Data → Option Fields
  | .object fields => some (Dict.insertAll own fields)
  | .null => some own
  | _ => none

/-- An instance is rendered in its own data with other data laid over it. -/
theorem render_of_laid? {i : Instance} {data : Data} {fields : Fields}
    (h : laid? i.defaults data = some fields) :
    render i data = (renderNodes i.name fields none i.nodes).map String.ofList := by
  unfold laid? at h
  split at h
  · cases h
    rfl
  · cases h
    rfl
  · cases h

/-- So an instance is made and rendered in one scope. -/
theorem render_instantiate (spec : Spec Instance) {own fields : Fields} {data : Data}
    (hown : ownData spec.name spec.exports = .ok own) (hlaid : laid? own data = some fields) :
    (do render (← instantiate spec) data) = (do
      let nodes ← compile spec.name spec.dependencies spec.template
      return String.ofList (← renderNodes spec.name fields none nodes)) := by
  rw [instantiate, hown]
  rcases compile spec.name spec.dependencies spec.template with e | nodes
  · rfl
  · exact render_of_laid? (i := ⟨spec.name, own, nodes⟩) hlaid

end Template

namespace Site

/-- The scope that the template of a page is rendered in: the data for its route, laid over what the
page has of itself. -/
def scope (job : PageJob) : Except BuildError Fields := do
  let data ← pageData job
  match Template.ownData job.page.name job.page.exports with
  | .error e => throw (.render job.source e)
  | .ok own =>
    match Template.laid? own data with
    | some fields => return fields
    | none => throw (.render job.source (.dataShape job.page.name))

/-- The document of a page of which the template is rendered in a scope. -/
def renderIn (site : Site) (job : PageJob) (scope : Fields) : Except BuildError String := do
  site.registry.require .materialized
  let styles := site.minifier.css (← site.pageStyles job)
  let text := do
    let dependencies := site.registry.instancesOf (site.used job.page)
    let nodes ← Template.compile job.page.name dependencies job.page.blocks.template
    return String.ofList (← Template.renderNodes job.page.name scope none nodes)
  match text with
  | .error e => throw (.render job.source e)
  | .ok text => return site.minifier.html (Document.assemble styles text site.script?)

variable {job : PageJob}

/-- A page is rendered in its scope. -/
theorem render_eq_renderIn {fields : Fields} (h : scope job = .ok fields) (site : Site) :
    site.render job = site.renderIn job fields := by
  rw [scope] at h
  obtain ⟨data, hdata, h⟩ := bind_eq_ok h
  split at h
  · cases h
  · next own hown =>
    split at h
    · next hlaid =>
      cases h
      rw [render, renderIn, hdata]
      refine bind_congr fun _ => bind_congr fun css => ?_
      have hbody := Template.render_instantiate ⟨job.page.name, job.page.blocks.template,
        job.page.exports, site.registry.instancesOf (site.used job.page)⟩ hown hlaid
      dsimp only at hbody
      rw [← hbody]
      rfl
    · cases h

/-- A page that states no data is rendered in an empty scope, whatever its route has. -/
theorem scope_of_none (h : job.page.exports.props? = none) : scope job = .ok [] := by
  rw [scope, pageData, h, Template.ownData, h]
  rfl

theorem scope_of_fixed {own : Fields} (h : job.page.exports.props? = some (.fixed own)) :
    scope job = .ok (statedScope own (job.route?.getD {})) := by
  rw [scope, pageData, h, Template.ownData, h]
  rfl

end Site

/-! ## What is seen of a route -/

/-- Route data reaches a scope: each field of the route's data has its value there, unless there is
one of this name the placeholders are bound to `params`, and the other fields that the page states
have theirs. -/
structure Reaches (own : Fields) (route : Route) (scope : Fields) : Prop where
  /-- the data of the route -/
  props : ∀ name value, Dict.get? name route.props = some value →
    Dict.get? name scope = some value
  /-- the placeholders -/
  params : Dict.get? "params" route.props = none →
    Dict.get? "params" scope = some route.paramsData
  /-- what the page states -/
  own : ∀ name value, name ≠ "params" → Dict.get? name route.props = none →
    Dict.get? name own = some value → Dict.get? name scope = some value

/-- An empty scope is never reached, since nothing has the name `params` in it. -/
theorem not_reaches_nil (own : Fields) (route : Route) : ¬ Reaches own route [] := by
  intro h
  rcases hparams : Dict.get? "params" route.props with _ | value
  · cases h.params hparams
  · cases h.props _ _ hparams

theorem reaches_statedScope {own : Fields} {route : Route} (hown : Dict.Ascending own)
    (hprops : Dict.Ascending route.props) : Reaches own route (statedScope own route) := by
  refine ⟨fun name value hvalue => ?_, fun hnone => ?_, fun name value hname hnone hvalue => ?_⟩
  · rw [get?_statedScope hown hprops, hvalue, Option.some_or]
  · rw [get?_statedScope hown hprops, hnone, Option.none_or, if_pos rfl]
  · rw [get?_statedScope hown hprops, hnone, Option.none_or, if_neg hname, hvalue]

namespace Site

/-- The scope of a page that was loaded is reached exactly if the page states data. -/
theorem exists_scope (job : PageJob) {route : Route} (hinOrder : job.page.exports.InOrder)
    (hroute : job.route? = some route) (hprops : Dict.Ascending route.props) :
    ∃ fields, scope job = .ok fields ∧
      (Reaches job.page.exports.stated route fields ↔ job.page.exports.props? ≠ none) := by
  obtain hnone | hfixed := hinOrder.props
  · refine ⟨[], scope_of_none hnone, ?_⟩
    exact iff_of_false (not_reaches_nil _ route) (not_not.2 hnone)
  · refine ⟨_, scope_of_fixed hfixed, ?_⟩
    rw [hroute, Option.getD_some]
    refine iff_of_true (reaches_statedScope hinOrder.own hprops) ?_
    rw [hfixed]
    exact Option.some_ne_none _

/-- **What route data reaches a page.** A page that was loaded has a scope for each of its routes, in
which its template is rendered. There each field of the route's data has its value, and so have the
placeholders as `params` and the fields that the page states, each unless one before it has the name;
if and only if the page states data at all, and be it an empty object. -/
theorem route_data_reaches_iff {d : Disk} {source : Path} {page : Component Instance}
    {routes : List Route} {route : Route} (hload : Component.load d source = .ok page)
    (hroutes : page.exports.routes? = some routes) (hroute : route ∈ routes) (output : Path) :
    ∃ fields, scope ⟨source, output, some route, page⟩ = .ok fields ∧
      (∀ site : Site, site.render ⟨source, output, some route, page⟩ =
        site.renderIn ⟨source, output, some route, page⟩ fields) ∧
      (Reaches page.exports.stated route fields ↔ page.exports.props? ≠ none) := by
  have hinOrder := Component.inOrder_of_load hload
  obtain ⟨fields, hscope, hreaches⟩ :=
    exists_scope ⟨source, output, some route, page⟩ hinOrder rfl
      (hinOrder.routes routes hroutes route hroute)
  exact ⟨fields, hscope, render_eq_renderIn hscope, hreaches⟩

/-- A site with one page, which has a placeholder and one route, and exports this in front of it. -/
def slugSite (exported : String) : Disk :=
  let put (t? : Option FileTree) (dir : Location) (name : String) (entry : Entry) :=
    t?.bind fun t => t.put? dir name entry
  let route := "\x7b params: \x7b slug: 'a' \x7d, props: \x7b title: 'T' \x7d \x7d"
  let script := "export default \x7b " ++ exported ++ "paths: [" ++ route ++ "] \x7d"
  let page := "<template>\x7b\x7b title \x7d\x7d</template><script>" ++ script ++ "</script>"
  let pages := put (put (some .empty) [] "pages" .directory) ["pages"] "[slug].vue"
    (.file page.toUTF8)
  ⟨pages.getD .empty, []⟩

/-- The file of this page. -/
def slugPage : Path := ⟨"pages/[slug].vue"⟩

/-- The page as it is loaded, with its only route. -/
theorem exists_slug {exported : String} {stated : Bool}
    (h : (Component.load (slugSite exported) slugPage : Except BuildError (Component Instance)).map
      (fun page => (page.exports.props?.isSome, page.exports.routes?.map List.length)) =
        .ok (stated, some 1)) :
    ∃ (page : Component Instance) (route : Route),
      Component.load (slugSite exported) slugPage = .ok page ∧
      page.exports.routes? = some [route] ∧ page.exports.props?.isSome = stated := by
  rcases hload : (Component.load (slugSite exported) slugPage :
    Except BuildError (Component Instance)) with e | page
  · rw [hload] at h
    cases h
  · rw [hload] at h
    obtain ⟨hstated, hlength⟩ := Prod.mk.inj (Except.ok.inj h)
    obtain ⟨routes, hroutes, hone⟩ := Option.map_eq_some_iff.1 hlength
    obtain ⟨route, rfl⟩ := List.length_eq_one_iff.1 hone
    exact ⟨page, route, rfl, hroutes, hstated⟩

/-- An empty object is enough. -/
theorem route_data_reaches_iff_slug :
    ∃ (page : Component Instance) (route : Route) (fields : Fields),
      Component.load (slugSite "props: \x7b\x7d, ") slugPage = .ok page ∧
      page.exports.routes? = some [route] ∧
      scope ⟨slugPage, ⟨"dist/a/index.html"⟩, some route, page⟩ = .ok fields ∧
      Reaches page.exports.stated route fields := by
  have hread : (Component.load (slugSite "props: \x7b\x7d, ") slugPage :
      Except BuildError (Component Instance)).map
      (fun page => (page.exports.props?.isSome, page.exports.routes?.map List.length)) =
        .ok (true, some 1) := by decide +kernel
  obtain ⟨page, route, hload, hroutes, hstated⟩ := exists_slug hread
  obtain ⟨fields, hscope, -, hreaches⟩ :=
    route_data_reaches_iff hload hroutes List.mem_cons_self ⟨"dist/a/index.html"⟩
  exact ⟨page, route, fields, hload, hroutes, hscope,
    hreaches.2 (Option.isSome_iff_ne_none.1 hstated)⟩

/-- A page that states no data does not see its route. -/
theorem route_data_is_dropped :
    ¬ ∀ (d : Disk) (source output : Path) (page : Component Instance) (routes : List Route)
        (route : Route) (fields : Fields),
        Page.isDynamic source = true → Component.load d source = .ok page →
        page.exports.routes? = some routes → route ∈ routes →
        scope ⟨source, output, some route, page⟩ = .ok fields →
        Reaches page.exports.stated route fields := by
  intro h
  have hread : (Component.load (slugSite "") slugPage :
      Except BuildError (Component Instance)).map
      (fun page => (page.exports.props?.isSome, page.exports.routes?.map List.length)) =
        .ok (false, some 1) := by decide +kernel
  obtain ⟨page, route, hload, hroutes, hstated⟩ := exists_slug hread
  have hnone : page.exports.props? = none := by simpa using hstated
  exact not_reaches_nil _ route (h _ slugPage ⟨"dist/a/index.html"⟩ page [route] route []
    (by decide +kernel) hload hroutes List.mem_cons_self (scope_of_none hnone))

end Site

end StaticSite
