import StaticSite.Proofs.SheetOrder

/-!
# The style rules of a page

A page asks for its own style sheets and for those that the components named by its tags have
gathered, each where it is first asked for (`sheetsAsked`). If one of them is not among the assets, it
is the first such one that the page cannot be rendered for. Otherwise their contents are put together
from the last one to the first, and the style blocks of the page come behind them. So each style
sheet that the page or a component in use declares is there once, and those of the page itself stand
behind all others, where they win.
-/

namespace StaticSite

open Relation (ReflTransGen)
open Text

namespace Site

variable {site : Site} {job : PageJob}

/-! ## What is asked for -/

/-- The style sheets that a page asks for: its own, then those of each component that has the name
of one of its tags, in the order in which the names first appear. Of repeats the first one counts. -/
def sheetsAsked (site : Site) (page : Component Instance) : List String :=
  let names := ((Markup.tagRuns page.blocks.template.toList).map String.ofList).eraseDups
  (page.exports.styles ++ (names.filterMap site.registry.find?).flatMap (·.styles)).eraseDups

theorem styleSheets_eq_sheetsAsked (site : Site) (page : Component Instance) :
    site.styleSheets page = site.sheetsAsked page := by
  have hnames (names : List String) :
      ((site.registry.resolveTags names).flatMap fun id =>
        (site.registry.components[id]?.map (·.styles)).getD []) =
      (names.filterMap site.registry.find?).flatMap (·.styles) := by
    induction names with
    | nil => rfl
    | cons name names ih =>
      rw [Registry.resolveTags] at ih ⊢
      rcases hid : site.registry.idOf? name with _ | id
      · rw [List.filterMap_cons_none hid,
          List.filterMap_cons_none (Registry.find?_eq_none.2 hid), ih]
      · obtain ⟨c, hc, -⟩ := Registry.idOf?_eq_some.1 hid
        have hfind : site.registry.find? name = some c := by
          rw [Registry.find?, hid, Option.bind_some, hc]
        rw [List.filterMap_cons_some hid, List.filterMap_cons_some hfind, List.flatMap_cons,
          List.flatMap_cons, ih, hc]
        rfl
  rw [styleSheets, used, hnames, distinct_eq_eraseDups, Component.tags, Markup.tagNames,
    distinct_eq_eraseDups]
  rfl

/-- What a page itself declares is asked for first. -/
theorem exists_sheetsAsked_eq (site : Site) (page : Component Instance) :
    ∃ others, site.sheetsAsked page = page.exports.styles.eraseDups ++ others ∧
      ∀ style ∈ others, style ∉ page.exports.styles := by
  refine ⟨_, List.eraseDups_append, fun style hstyle => ?_⟩
  rw [List.mem_eraseDups, List.removeAll, List.mem_filter] at hstyle
  simpa using hstyle.2

/-- What is asked for is what the page or a component in use declares. -/
theorem mem_sheetsAsked (hacyclic : site.registry.graph.Acyclic)
    (hall : ∀ c ∈ site.registry.components, Registry.HasStyles site.registry c)
    {page : Component Instance} {style : String} :
    style ∈ site.sheetsAsked page ↔ style ∈ page.exports.styles ∨
      ∃ id, site.Uses page id ∧ style ∈ site.registry.declared id := by
  rw [← styleSheets_eq_sheetsAsked, styleSheets_eq page hacyclic hall, mem_distinct,
    List.mem_append, List.mem_flatMap]
  simp only [mem_tour hacyclic]

/-! ## What is put together -/

/-- The contents of style sheets, one after the other and each with a line end. -/
def rulesOf (site : Site) (styles : List String) : String :=
  String.join (styles.map fun style => site.sheetText style ++ "\n")

/-- The style blocks of a page in the order of its file, each with a line end. -/
def blockRules (page : Component Instance) : String :=
  String.join (page.blocks.styles.map fun block => block.content ++ "\n")

theorem intercalate_empty (xs : List String) : "".intercalate xs = String.join xs := by
  apply String.toList_injective
  rw [toList_intercalate_empty, String.toList_join]

/-- A style sheet that is found gives its content. -/
theorem resolve?_eq_sheetText {style : String}
    (h : (site.assets.resolve? site.settings.root style).isSome) :
    site.assets.resolve? site.settings.root style = some (site.sheetText style) := by
  obtain ⟨content, hcontent⟩ := Option.isSome_iff_exists.1 h
  rw [sheetText, hcontent, Option.getD_some]

/-- With all style sheets at hand, their contents are put together from the last one to the first,
with the style blocks behind them. -/
theorem pageStyles_of_forall
    (h : ∀ style ∈ site.sheetsAsked job.page,
      (site.assets.resolve? site.settings.root style).isSome) :
    site.pageStyles job =
      .ok (site.rulesOf (site.sheetsAsked job.page).reverse ++ blockRules job.page) := by
  rw [pageStyles, styleSheets_eq_sheetsAsked, mapM_of_forall fun style hstyle => by
    rw [resolve?_eq_sheetText (h style hstyle)]]
  simp only [Bind.bind, Except.bind, pure, Except.pure, intercalate_empty, List.map_append,
    String.join_append, List.map_map, ← List.map_reverse]
  rfl

/-- The first style sheet that is not at hand is the one that is missed. -/
theorem pageStyles_of_find? {style : String}
    (h : (site.sheetsAsked job.page).find?
      (fun s => (site.assets.resolve? site.settings.root s).isNone) = some style) :
    site.pageStyles job = .error (.missingAsset job.source style) := by
  obtain ⟨hnone, front, back, hsplit, hfront⟩ := List.find?_eq_some_iff_append.1 h
  rw [pageStyles, styleSheets_eq_sheetsAsked, hsplit, mapM_of_first (g := site.sheetText)]
  · rfl
  · intro s hs
    have hfound := hfront s hs
    rw [Bool.not_eq_true', Option.isNone_eq_false_iff] at hfound
    rw [resolve?_eq_sheetText hfound]
  · rw [Option.isNone_iff_eq_none.1 hnone]

/-! ## What is made of it -/

theorem render_of_pageStyles_error {e : BuildError} (hs : site.registry.stage = .materialized)
    (h : site.pageStyles job = .error e) : site.render job = .error e := by
  have hrequire : site.registry.require .materialized = .ok () :=
    Registry.require_of_le (by rw [hs]; decide)
  rw [render, hrequire, h]
  rfl

/-- With its style rules put together, a page becomes a document with them in its head, unless its
data, its template or its rendering fails. -/
theorem render_of_pageStyles {css : String} (hs : site.registry.stage = .materialized)
    (h : site.pageStyles job = .ok css) :
    (∃ body, site.render job =
      .ok (site.minifier.html (Document.assemble (site.minifier.css css) body site.script?))) ∨
    ∃ cause, site.render job = .error (.render job.source cause) := by
  have hrequire : site.registry.require .materialized = .ok () :=
    Registry.require_of_le (by rw [hs]; decide)
  rw [render, hrequire, h]
  simp only [Bind.bind, Except.bind]
  rcases hdata : pageData job with e | data
  · right
    simp only [pageData] at hdata
    split at hdata
    · cases hdata
    · split at hdata
      · cases hdata
      · cases hdata
        exact ⟨_, rfl⟩
  · dsimp only
    split
    · exact .inr ⟨_, rfl⟩
    · exact .inl ⟨_, rfl⟩

/-- **The style rules of a page.** In a site with a materialized registry, whatever the operations
that it came from, the page is refused for the first style sheet it asks for that is not among the
assets. If there is none, its style rules are the contents of all that it asks for, from the last to
the first, and then its style blocks; and these stand in its document, unless its data, its template
or its rendering fails. What it asks for is what the page or a component in use declares, each once,
and those of the page itself come behind all others. -/
theorem page_style_rules {make : Template.Spec Instance → Except RenderError Instance}
    {ops : List (Registry.Op Instance)} (hreached : site.registry = Registry.after make ops)
    (hs : site.registry.stage = .materialized) (job : PageJob) :
    (∀ style, (site.sheetsAsked job.page).find?
        (fun s => (site.assets.resolve? site.settings.root s).isNone) = some style →
      site.render job = .error (.missingAsset job.source style)) ∧
    ((∀ style ∈ site.sheetsAsked job.page,
        (site.assets.resolve? site.settings.root style).isSome) →
      ∃ css, site.pageStyles job = .ok css ∧
        css = site.rulesOf (site.sheetsAsked job.page).reverse ++ blockRules job.page ∧
        ((∃ body, site.render job =
          .ok (site.minifier.html (Document.assemble (site.minifier.css css) body site.script?))) ∨
        ∃ cause, site.render job = .error (.render job.source cause))) ∧
    (site.sheetsAsked job.page).Nodup ∧
    (∀ style, style ∈ site.sheetsAsked job.page ↔ style ∈ job.page.exports.styles ∨
      ∃ id, site.Uses job.page id ∧ style ∈ site.registry.declared id) ∧
    ∃ others, (∀ style ∈ others, style ∉ job.page.exports.styles) ∧
      (site.sheetsAsked job.page).reverse =
        others ++ job.page.exports.styles.eraseDups.reverse := by
  have hpromise : Registry.Promise make site.registry := hreached ▸ Registry.promise_after ops
  have hacyclic := hpromise.acyclic (hs ▸ by decide)
  have hstyles := hpromise.hasStyles (hs ▸ by decide)
  refine ⟨fun style h => render_of_pageStyles_error hs (pageStyles_of_find? h), fun h => ?_, ?_,
    fun style => mem_sheetsAsked hacyclic hstyles, ?_⟩
  · have hcss := pageStyles_of_forall h
    exact ⟨_, hcss, rfl, render_of_pageStyles hs hcss⟩
  · rw [← styleSheets_eq_sheetsAsked]
    exact nodup_distinct _
  · obtain ⟨others, heq, hnot⟩ := exists_sheetsAsked_eq site job.page
    refine ⟨others.reverse, fun style hstyle => hnot style (List.mem_reverse.1 hstyle), ?_⟩
    rw [heq, List.reverse_append]

/-- A page with a style block of its own that uses `A`. -/
def blockJob (styles : List String) : PageJob where
  source := ⟨"pages/index.vue"⟩
  output := ⟨"dist/index.html"⟩
  route? := none
  page := { sheeted "index" "<A/>" styles with blocks := ⟨"<A/>", "", [⟨"p{}", none⟩]⟩ }

/-- The page asks for the style sheet of `B` itself, so that it comes behind the one of `A`; and a
style sheet that is nowhere is missed. -/
theorem page_style_rules_chained :
    styledSite.registry = Registry.after Template.instantiate
      [.insert (sheeted "A" "<B/>" ["a.css"]), .insert (sheeted "B" "b" ["b.css"]), .prepare] ∧
    styledSite.registry.stage = .materialized ∧
    styledSite.pageStyles (blockJob ["b.css"]) = .ok ".a{}\n.b{}\np{}\n" ∧
    styledSite.render (blockJob ["b.css", "c.css"]) =
      .error (.missingAsset ⟨"pages/index.vue"⟩ "c.css") := by
  have hreached : styledSite.registry = Registry.after Template.instantiate
      [.insert (sheeted "A" "<B/>" ["a.css"]), .insert (sheeted "B" "b" ["b.css"]), .prepare] :=
    (congrArg Prod.fst prepare_chained).symm
  have hs : styledSite.registry.stage = .materialized := by decide +kernel
  obtain ⟨-, hfound, -⟩ := page_style_rules hreached hs (blockJob ["b.css"])
  obtain ⟨hmissed, -⟩ := page_style_rules hreached hs (blockJob ["b.css", "c.css"])
  have hasked : styledSite.sheetsAsked (blockJob ["b.css"]).page = ["b.css", "a.css"] := by
    decide +kernel
  have hall : ∀ style ∈ ["b.css", "a.css"],
      (styledSite.assets.resolve? styledSite.settings.root style).isSome := by decide +kernel
  obtain ⟨css, hcss, htext, -⟩ := hfound (hasked ▸ hall)
  refine ⟨hreached, hs, ?_, hmissed "c.css" (by decide +kernel)⟩
  rw [hcss, htext, hasked]
  decide +kernel

end Site

end StaticSite
