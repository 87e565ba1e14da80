import StaticSite.Proofs.Success
import StaticSite.Proofs.Unfolding
import StaticSite.Site.Pages

/-!
# The order of style sheets in a page

A page puts its style sheets into one text, in the opposite order of a list that holds its own and
then the unfoldings of the components that it uses, each once. So of two components that the page
uses, the style sheets of the one that is met *later* come first, where the components are met in the
order in which the tags of the page, and then those of each component in its place, are read
(`Site.tour`).

A component that depends on another one is often met before it, and then its own rules come behind
and win. But it is met later if the page, or a component met before, also uses the other one
directly, in front; then its rules come first and lose.
-/

namespace StaticSite

open Relation (ReflTransGen TransGen)
open Text

/-! ## Which of two is met first -/

section order

variable {α : Type} [DecidableEq α] {xs : List α} {x y : α}

/-- One is met before another one if some beginning of the list has the one and not the other. -/
theorem idxOf_lt_idxOf_iff :
    xs.idxOf x < xs.idxOf y ↔ ∃ front, front <+: xs ∧ x ∈ front ∧ y ∉ front := by
  constructor
  · intro hlt
    have hx : x ∈ xs := List.idxOf_lt_length_iff.1 (hlt.trans_le List.idxOf_le_length)
    refine ⟨xs.take (xs.idxOf x + 1), List.take_prefix _ _, ?_, fun hy => ?_⟩
    · exact List.mem_take_iff_idxOf_lt hx |>.2 (Nat.lt_succ_self _)
    · have hlt' := (List.mem_take_iff_idxOf_lt (List.mem_of_mem_take hy)).1 hy
      omega
  · rintro ⟨front, ⟨back, rfl⟩, hx, hy⟩
    rw [List.idxOf_append_of_mem hx, List.idxOf_append_of_notMem hy]
    exact Nat.lt_add_right _ (List.idxOf_lt_length_of_mem hx)

/-- Of two that differ, one that is in the list is met first or met later. -/
theorem idxOf_lt_or_gt (hx : x ∈ xs) (hne : x ≠ y) :
    xs.idxOf x < xs.idxOf y ∨ xs.idxOf y < xs.idxOf x := by
  rcases Nat.lt_trichotomy (xs.idxOf x) (xs.idxOf y) with hlt | heq | hgt
  · exact .inl hlt
  · exact absurd (List.idxOf_inj hx |>.1 heq) hne
  · exact .inr hgt

theorem idxOf_reverse_lt (hnodup : xs.Nodup) (hy : y ∈ xs) (h : xs.idxOf x < xs.idxOf y) :
    xs.reverse.idxOf y < xs.reverse.idxOf x := by
  obtain ⟨front, ⟨back, rfl⟩, hx, hnot⟩ := idxOf_lt_idxOf_iff.1 h
  refine idxOf_lt_idxOf_iff.2 ⟨back.reverse, ?_, ?_, fun hback => ?_⟩
  · rw [List.reverse_append]
    exact List.prefix_append _ _
  · rw [List.mem_reverse]
    exact (List.mem_append.1 hy).resolve_left hnot
  · exact (List.nodup_append.1 hnodup).2.2 x hx x (List.mem_reverse.1 hback) rfl

/-- Read from the end, what was met first is met last. -/
theorem idxOf_reverse_lt_iff (hnodup : xs.Nodup) (hx : x ∈ xs) (hy : y ∈ xs) :
    xs.reverse.idxOf y < xs.reverse.idxOf x ↔ xs.idxOf x < xs.idxOf y := by
  refine ⟨fun h => ?_, idxOf_reverse_lt hnodup hy⟩
  have hback := idxOf_reverse_lt (List.nodup_reverse.2 hnodup) (List.mem_reverse.2 hx) h
  rwa [List.reverse_reverse] at hback

variable {β : Type} {own : List α} {ys : List β} {f : β → List α} {u v : β} [DecidableEq β]

/-- Of two values that each come from one item only, the one is met first whose item is. -/
theorem idxOf_distinct_lt (hx : ∀ w, x ∈ f w ↔ w = u) (hy : ∀ w, y ∈ f w ↔ w = v)
    (hown : y ∉ own) (h : ys.idxOf u < ys.idxOf v) :
    (distinct (own ++ ys.flatMap f)).idxOf x < (distinct (own ++ ys.flatMap f)).idxOf y := by
  obtain ⟨front, ⟨back, rfl⟩, hu, hv⟩ := idxOf_lt_idxOf_iff.1 h
  refine idxOf_lt_idxOf_iff.2 ⟨distinct (own ++ front.flatMap f), ?_, ?_, fun hmem => ?_⟩
  · rw [List.flatMap_append, ← List.append_assoc, distinct_append (own ++ front.flatMap f)]
    exact prefix_extendNew _ _
  · exact mem_distinct.2 (List.mem_append_right _ (List.mem_flatMap.2 ⟨u, hu, (hx u).2 rfl⟩))
  · rcases List.mem_append.1 (mem_distinct.1 hmem) with hmem | hmem
    · exact hown hmem
    · obtain ⟨w, hw, hyw⟩ := List.mem_flatMap.1 hmem
      exact hv ((hy w).1 hyw ▸ hw)

theorem idxOf_distinct_lt_iff (hx : ∀ w, x ∈ f w ↔ w = u) (hy : ∀ w, y ∈ f w ↔ w = v)
    (hxown : x ∉ own) (hyown : y ∉ own) (hu : u ∈ ys) (hne : u ≠ v) :
    (distinct (own ++ ys.flatMap f)).idxOf x < (distinct (own ++ ys.flatMap f)).idxOf y ↔
      ys.idxOf u < ys.idxOf v := by
  refine ⟨fun h => ?_, idxOf_distinct_lt hx hy hyown⟩
  refine (idxOf_lt_or_gt hu hne).resolve_right fun hgt => ?_
  exact Nat.lt_asymm h (idxOf_distinct_lt hy hx hxown hgt)

end order

/-! ## One text after another -/

/-- A text stands somewhere before another one. -/
def StandsBefore (x y text : String) : Prop :=
  ∃ front middle back, text = front ++ x ++ middle ++ y ++ back

theorem StandsBefore.sublist {x y text : String} (h : StandsBefore x y text) :
    (x.toList ++ y.toList).Sublist text.toList := by
  obtain ⟨front, middle, back, rfl⟩ := h
  simp only [String.toList_append]
  refine List.Sublist.trans ?_ (List.sublist_append_left _ _)
  refine List.Sublist.append ?_ (List.Sublist.refl _)
  exact (List.sublist_append_right _ _).trans (List.sublist_append_left _ _)

theorem toList_intercalate_empty (xs : List String) :
    ("".intercalate xs).toList = xs.flatMap String.toList := by
  rw [String.toList_intercalate, String.toList_empty]
  induction xs with
  | nil => rfl
  | cons x xs ih =>
    rw [List.flatMap_cons, ← ih]
    cases xs <;> simp [List.intercalate]

/-- Of two texts that are put together with others, the one stands before the other that comes
first. -/
theorem standsBefore_of_idxOf_lt {names : List String} {text : String → String}
    {blocks : List String} {a b : String} (hb : b ∈ names) (h : names.idxOf a < names.idxOf b) :
    StandsBefore (text a) (text b)
      ("".intercalate ((names.map text ++ blocks).map (· ++ "\n"))) := by
  obtain ⟨front, ⟨back, rfl⟩, ha, hnot⟩ := idxOf_lt_idxOf_iff.1 h
  obtain ⟨before, between, rfl⟩ := List.append_of_mem ha
  obtain ⟨between', behind, rfl⟩ := List.append_of_mem ((List.mem_append.1 hb).resolve_left hnot)
  let join (xs : List String) := "".intercalate ((xs.map text).map (· ++ "\n"))
  refine ⟨join before, "\n" ++ join (between ++ between'),
    "\n" ++ join behind ++ "".intercalate (blocks.map (· ++ "\n")), ?_⟩
  apply String.toList_injective
  simp only [join, List.map_append, List.map_cons, String.toList_append, toList_intercalate_empty,
    List.flatMap_append, List.flatMap_cons, List.append_assoc]

/-! ## Prepared registries -/

namespace Registry

variable {I : Type} {make : Template.Spec I → Except RenderError I} {r r' : Registry I}

/-- What a registry is once it is linked and checked. -/
def checked (r : Registry I) : Registry I := { r.link with stage := .checked }

/-- What it is once style sheets have also been gathered, along a build order that is known. -/
def styledAlong (r : Registry I) (order : List Nat) : Registry I :=
  { order.foldl styleOne r.checked with stage := .styled }

/-- All passes after each other, along a build order that is known. -/
def prepareAlong (make : Template.Spec I → Except RenderError I) (r : Registry I)
    (order : List Nat) : Registry I × Except BuildError Unit :=
  match materializeAll make (r.styledAlong order) order with
  | (r, .error e) => (r, .error e)
  | (r, .ok _) => ({ r with stage := .materialized }, .ok ())

theorem postOrder_eq_ok {order : List Nat} :
    r.postOrder = .ok order ↔ r.graph.depthFirst = .ok order := by
  rw [postOrder]
  cases r.graph.depthFirst <;> simp

/-! A build order of the linked registry is one of the registries that the passes make of it. -/

section along

variable {order : List Nat}

theorem checkCycles_link (h : r.link.postOrder = .ok order) :
    r.link.checkCycles = .ok r.checked := by
  have hlinked : r.link.require .linked = .ok () := require_of_le (Nat.le_refl _)
  have hfind := findCycle_eq_none.2 (postOrder_isOk_iff.1 ⟨order, h⟩)
  rw [checkCycles, hlinked, hfind]
  rfl

theorem aggregateStyles_checked (h : r.link.postOrder = .ok order) :
    r.checked.aggregateStyles = .ok (r.styledAlong order) := by
  have hchecked : r.checked.require .checked = .ok () := require_of_le (Nat.le_refl _)
  have horder : r.checked.postOrder = .ok order := h
  rw [aggregateStyles, hchecked, horder]
  simp only [Bind.bind, Except.bind, (sameBut_foldl_styleOne order r.checked).stage_eq]
  rfl

theorem postOrder_styledAlong (h : r.link.postOrder = .ok order) :
    (r.styledAlong order).postOrder = .ok order := by
  have hgraph : (r.styledAlong order).graph = r.link.graph :=
    (sameBut_foldl_styleOne order r.checked).graph_eq fun _ => rfl
  rw [postOrder_eq_ok, hgraph, ← postOrder_eq_ok, h]

/-- The passes of `prepare` find out the same build order each, that of the linked registry. -/
theorem prepare_eq_prepareAlong (h : r.link.postOrder = .ok order) :
    r.prepare make = r.prepareAlong make order := by
  have hstyled : (r.styledAlong order).require .styled = .ok () := require_of_le (Nat.le_refl _)
  rw [prepare, checkCycles_link h]
  dsimp only
  rw [aggregateStyles_checked h]
  dsimp only
  rw [materialize, hstyled, postOrder_styledAlong h]
  rfl

end along

theorem stage_of_prepare_ok (h : r.prepare make = (r', .ok ())) : r'.stage = .materialized := by
  rcases hcheck : r.link.checkCycles with e | checked
  · rw [prepare, hcheck] at h
    cases h
  · obtain ⟨order, horder⟩ := postOrder_isOk_iff.2 (checkCycles_eq_ok hcheck).2.1
    rw [prepare_eq_prepareAlong horder, prepareAlong] at h
    split at h
    · cases h
    · cases h
      rfl

/-- What a prepared registry has of its style sheets at a place is what is unfolded there. -/
theorem styles_getD_eq (hacyclic : r.graph.Acyclic) (hall : ∀ c ∈ r.components, HasStyles r c)
    (id : Nat) : (r.components[id]?.map (·.styles)).getD [] = distinct (r.unfolding id) := by
  rcases hget : r.components[id]? with _ | c
  · rw [unfolding_of_size_le (List.getElem?_eq_none_iff.1 hget)]
    rfl
  · exact styles_eq_distinct_unfolding hacyclic hall hget

end Registry

namespace Site

variable {site : Site} {page : Component Instance}

/-! ## The order of the style sheets -/

/-- A page uses a component, be it through others. -/
def Uses (site : Site) (page : Component Instance) (id : Nat) : Prop :=
  ∃ d ∈ site.used page, ReflTransGen site.registry.graph.DependsOn d id

/-- The components that a page uses, in the order in which tags are read: those of the page and, in
the place of each one, those of its template. Whoever is used twice stands there twice. -/
def tour (site : Site) (page : Component Instance) : List Nat :=
  (site.used page).flatMap site.registry.graph.tour

/-- A style sheet is declared by one component, by no other one and not by the page. -/
structure DeclaredOnlyBy (site : Site) (page : Component Instance) (style : String) (id : Nat) :
    Prop where
  /-- one component declares it, and no other one -/
  declared : ∀ other, style ∈ site.registry.declared other ↔ other = id
  /-- the page does not -/
  not_page : style ∉ page.exports.styles

/-- The content of a style sheet, by its name. -/
def sheetText (site : Site) (style : String) : String :=
  (site.assets.resolve? site.settings.root style).getD ""

theorem mem_tour (hacyclic : site.registry.graph.Acyclic) {id : Nat} :
    id ∈ site.tour page ↔ site.Uses page id := by
  simp only [tour, Uses, List.mem_flatMap, Graph.mem_tour hacyclic]

/-- The style sheets of a page are its own and those that are declared along the tour, each once. -/
theorem styleSheets_eq (page : Component Instance) (hacyclic : site.registry.graph.Acyclic)
    (hall : ∀ c ∈ site.registry.components, Registry.HasStyles site.registry c) :
    site.styleSheets page =
      distinct (page.exports.styles ++ (site.tour page).flatMap site.registry.declared) := by
  rw [styleSheets, List.flatMap_congr fun id _ => Registry.styles_getD_eq hacyclic hall id,
    distinct_append_flatMap_distinct, tour, List.flatMap_assoc]
  rfl

/-- The style rules of a page are put together from its style sheets, read from the end, and its
style blocks. -/
theorem pageStyles_eq_ok {job : PageJob} {css : String} (h : site.pageStyles job = .ok css) :
    (∀ style ∈ site.styleSheets job.page,
      ∃ content, site.assets.resolve? site.settings.root style = some content) ∧
    css = "".intercalate (((site.styleSheets job.page).reverse.map site.sheetText ++
      job.page.blocks.styles.map (·.content)).map (· ++ "\n")) := by
  rw [pageStyles] at h
  obtain ⟨contents, hcontents, h⟩ := bind_eq_ok h
  cases h
  have hone : List.Forall₂ (fun style content =>
      (∃ content, site.assets.resolve? site.settings.root style = some content) ∧
        site.sheetText style = content) (site.styleSheets job.page) contents := by
    refine (mapM_eq_ok hcontents).imp fun style content hstyle => ?_
    rcases hresolve : site.assets.resolve? site.settings.root style with _ | found
    · rw [hresolve] at hstyle
      cases hstyle
    · rw [hresolve] at hstyle
      cases hstyle
      exact ⟨⟨content, rfl⟩, by rw [sheetText, hresolve, Option.getD_some]⟩
  obtain ⟨hresolve, htexts⟩ := (List.forall₂_and_left _ _).1 hone
  refine ⟨hresolve, ?_⟩
  rw [← List.forall₂_map_left_iff, List.forall₂_eq_eq_eq] at htexts
  rw [List.map_reverse, htexts]

/-- **Whose style sheets come first.** The style rules of a page are texts of style sheets, each of
them once, and then its style blocks. A page may use a component and another one that the first
depends on, each with a style sheet of its own. Then the style sheet of the other one comes first if
and only if the tags of the page lead to the first before they lead to the other one. -/
theorem dependency_first_iff {loaded : Registry Instance} {site : Site} {job : PageJob}
    {css : String} (hprepared : loaded.prepare Template.instantiate = (site.registry, .ok ()))
    (hcss : site.pageStyles job = .ok css) :
    ∃ names : List String, names.Nodup ∧
      (∀ name ∈ names, ∃ text, site.assets.resolve? site.settings.root name = some text) ∧
      css = "".intercalate ((names.map site.sheetText ++
        job.page.blocks.styles.map (·.content)).map (· ++ "\n")) ∧
      (∀ a b, b ∈ names → names.idxOf a < names.idxOf b →
        StandsBefore (site.sheetText a) (site.sheetText b) css) ∧
      ∀ user used a b, site.Uses job.page user →
        TransGen site.registry.graph.DependsOn user used →
        site.DeclaredOnlyBy job.page a user → site.DeclaredOnlyBy job.page b used →
        a ∈ names ∧ b ∈ names ∧
          (names.idxOf b < names.idxOf a ↔
            (site.tour job.page).idxOf user < (site.tour job.page).idxOf used) := by
  have hstage := Registry.stage_of_prepare_ok hprepared
  have hpromise : Registry.Promise Template.instantiate
      (loaded.prepare Template.instantiate).1 := Registry.promise_prepare loaded
  rw [hprepared] at hpromise
  have hacyclic := hpromise.acyclic (hstage ▸ by decide)
  have hsheets := styleSheets_eq job.page hacyclic (hpromise.hasStyles (hstage ▸ by decide))
  have hnodup : (site.styleSheets job.page).Nodup := nodup_distinct _
  obtain ⟨hresolve, htext⟩ := pageStyles_eq_ok hcss
  refine ⟨(site.styleSheets job.page).reverse, List.nodup_reverse.2 hnodup,
    fun name hname => hresolve name (List.mem_reverse.1 hname), htext,
    fun a b hb hlt => htext ▸ standsBefore_of_idxOf_lt hb hlt,
    fun user used a b huser hdepends ha hb => ?_⟩
  have hused : site.Uses job.page used :=
    huser.imp fun d hd => ⟨hd.1, hd.2.trans hdepends.to_reflTransGen⟩
  have hne : user ≠ used := fun heq => hacyclic user (heq ▸ hdepends)
  have hmem : ∀ {style : String} {id : Nat}, site.Uses job.page id →
      site.DeclaredOnlyBy job.page style id → style ∈ site.styleSheets job.page := by
    intro style id hid honly
    rw [hsheets, mem_distinct]
    exact List.mem_append_right _
      (List.mem_flatMap.2 ⟨id, (mem_tour hacyclic).2 hid, (honly.declared id).2 rfl⟩)
  refine ⟨List.mem_reverse.2 (hmem huser ha), List.mem_reverse.2 (hmem hused hb), ?_⟩
  -- reading the list from the end puts behind what is met first
  rw [idxOf_reverse_lt_iff hnodup (hmem huser ha) (hmem hused hb), hsheets]
  exact idxOf_distinct_lt_iff ha.declared hb.declared ha.not_page hb.not_page
    ((mem_tour hacyclic).2 huser) hne

/-- A component that declares style sheets. -/
def sheeted (name template : String) (styles : List String) : Component Instance where
  name := name
  path := ⟨name ++ ".vue"⟩
  blocks := ⟨template, "", []⟩
  exports := { styles }

/-- Two components of which `A` uses `B`. -/
def chained : Registry Instance :=
  Registry.after Template.instantiate
    [.insert (sheeted "A" "<B/>" ["a.css"]), .insert (sheeted "B" "b" ["b.css"])]

/-- A site of the two components. -/
def styledSite : Site where
  settings := {}
  registry := (chained.prepareAlong Template.instantiate [1, 0]).1
  assets := ⟨[(⟨"a.css"⟩, ".a{}"), (⟨"b.css"⟩, ".b{}")]⟩
  minifier := ⟨false⟩

/-- A page with a template. -/
def styledJob (template : String) : PageJob :=
  ⟨⟨"pages/index.vue"⟩, ⟨"dist/index.html"⟩, none, sheeted "index" template []⟩

theorem prepare_chained :
    chained.prepare Template.instantiate = (styledSite.registry, .ok ()) := by
  have horder : chained.link.postOrder = .ok [1, 0] := by cbv
  rw [Registry.prepare_eq_prepareAlong horder]
  refine Prod.ext rfl ?_
  decide +kernel

theorem declared_styledSite (id : Nat) :
    styledSite.registry.declared id = ([["a.css"], ["b.css"]][id]?).getD [] := by
  have hmap : styledSite.registry.components.map (·.exports.styles) = [["a.css"], ["b.css"]] := by
    decide +kernel
  rw [Registry.declared, ← List.getElem?_map, hmap]

/-- Each of the two components declares a style sheet of its own, and pages do not. -/
theorem declaredOnlyBy_styledSite (template : String) :
    styledSite.DeclaredOnlyBy (styledJob template).page "a.css" 0 ∧
      styledSite.DeclaredOnlyBy (styledJob template).page "b.css" 1 := by
  refine ⟨⟨fun other => ?_, List.not_mem_nil⟩, ⟨fun other => ?_, List.not_mem_nil⟩⟩ <;>
  · rw [declared_styledSite]
    rcases other with _ | _ | other <;> simp

theorem dependsOn_styledSite : styledSite.registry.graph.DependsOn 0 1 := by
  have hnext : styledSite.registry.graph.next 0 = [1] := by decide +kernel
  rw [Graph.DependsOn, hnext]
  exact List.mem_singleton_self 1

/-- A page that uses `A` alone has the style sheet of `B` in front. -/
theorem dependency_first_of_one_use :
    chained.prepare Template.instantiate = (styledSite.registry, .ok ()) ∧
      styledSite.pageStyles (styledJob "<A/>") = .ok ".b{}\n.a{}\n" ∧
        ∃ names : List String, names.Nodup ∧ names.idxOf "b.css" < names.idxOf "a.css" ∧
          ".b{}\n.a{}\n" =
            "".intercalate ((names.map styledSite.sheetText).map (· ++ "\n")) := by
  have hcss : styledSite.pageStyles (styledJob "<A/>") = .ok ".b{}\n.a{}\n" := by decide +kernel
  have hused : styledSite.used (styledJob "<A/>").page = [0] := by decide +kernel
  have htour : styledSite.tour (styledJob "<A/>").page = [0, 1] := by decide +kernel
  have huses : styledSite.Uses (styledJob "<A/>").page 0 := ⟨0, by rw [hused]; simp, .refl⟩
  obtain ⟨ha, hb⟩ := declaredOnlyBy_styledSite "<A/>"
  obtain ⟨names, hnodup, -, htext, -, horder⟩ := dependency_first_iff prepare_chained hcss
  obtain ⟨-, -, hiff⟩ := horder 0 1 _ _ huses (.single dependsOn_styledSite) ha hb
  refine ⟨prepare_chained, hcss, names, hnodup, hiff.2 ?_, ?_⟩
  · rw [htour]
    decide
  · rw [htext]
    exact congrArg _ (congrArg _ (List.append_nil _))

/-- The style sheet of a dependency does not always come first: a page may use the dependency in
front of the component that depends on it. -/
theorem dependency_last_of_two_uses :
    ¬ ∀ (loaded : Registry Instance) (site : Site) (job : PageJob) (css : String),
        loaded.prepare Template.instantiate = (site.registry, .ok ()) →
        site.pageStyles job = .ok css → ∀ user used a b x y, site.Uses job.page user →
          TransGen site.registry.graph.DependsOn user used →
          site.DeclaredOnlyBy job.page a user → site.DeclaredOnlyBy job.page b used →
          site.assets.resolve? site.settings.root a = some x →
          site.assets.resolve? site.settings.root b = some y →
          StandsBefore y x (site.minifier.css css) := by
  intro h
  have hcss : styledSite.pageStyles (styledJob "<B/><A/>") = .ok ".a{}\n.b{}\n" := by
    decide +kernel
  have hused : styledSite.used (styledJob "<B/><A/>").page = [1, 0] := by decide +kernel
  have huses : styledSite.Uses (styledJob "<B/><A/>").page 0 := ⟨0, by rw [hused]; simp, .refl⟩
  obtain ⟨ha, hb⟩ := declaredOnlyBy_styledSite "<B/><A/>"
  have hbefore : StandsBefore ".b{}" ".a{}" ".a{}\n.b{}\n" :=
    h chained styledSite _ _ prepare_chained hcss 0 1 _ _ _ _ huses (.single dependsOn_styledSite)
      ha hb (by decide +kernel) (by decide +kernel)
  exact absurd hbefore.sublist (by decide)

end Site

end StaticSite
