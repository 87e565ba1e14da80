import StaticSite.Proofs.SheetOrder

/-!
# The order in which components are entered

A registry numbers its components in the order in which they are entered, and its passes work with
these numbers. What they find out does not depend on them. An `Outline` is what a component is
without its number: its template, its exports, and the names of the components that it uses. Of the
outlines alone, in whatever order,

* it can be said whether components use each other in a circle (`acyclic_iff_outlines`);
* it follows what the style sheets of each component are (`styledBy_unique`);
* it follows which instances can be made, and what they are (`solves_unique`).

The last two are fixed by equations that tell what a component has by what those have that it uses,
so that there is one solution at most (`outlines_induction`). And where the equations for instances
can be solved, making them does not fail, whichever build order is taken
(`materializeAll_of_solves`).
-/

namespace StaticSite

open Relation (TransGen)
open Text

/-- A component without its place among others. -/
structure Outline where
  /-- the name -/
  name : String
  /-- the template -/
  template : String
  /-- what the script exports -/
  exports : Exports
  /-- the names of the components that the template uses, in order -/
  used : List String

/-- What is needed to make an instance of a component, where others have theirs by name. -/
def Outline.spec {I : Type} (o : Outline) (inst? : String → Option I) : Template.Spec I :=
  ⟨o.name, o.template, o.exports,
    Dict.ofList (o.used.filterMap fun name => (inst? name).map fun i => (name, i))⟩

theorem Outline.spec_congr {I : Type} {o : Outline} {inst? inst?' : String → Option I}
    (h : ∀ name ∈ o.used, inst? name = inst?' name) : o.spec inst? = o.spec inst?' := by
  rw [spec, spec]
  congr 2
  exact List.filterMap_congr fun name hname => by rw [h name hname]

/-- A component uses another one, told by outlines. -/
def Depends (os : List Outline) (user used : String) : Prop :=
  ∃ o ∈ os, o.name = user ∧ used ∈ o.used

/-- Every component has the style sheets that it should have, by name. -/
def StyledBy (os : List Outline) (styles : String → List String) : Prop :=
  ∀ o ∈ os, styles o.name = distinct (o.exports.styles ++ o.used.flatMap styles)

/-- Every component has the instance that is made of it, by name. -/
def Solves {I : Type} (make : Template.Spec I → Except RenderError I) (os : List Outline)
    (inst? : String → Option I) : Prop :=
  ∀ o ∈ os, ∃ i, inst? o.name = some i ∧ make (o.spec inst?) = .ok i

namespace Registry

variable {I : Type} {make : Template.Spec I → Except RenderError I} {r r' : Registry I}

/-! ## Outlines of components -/

/-- A component of a registry without its place. -/
def outline (r : Registry I) (c : Component I) : Outline :=
  ⟨c.name, c.blocks.template, c.exports, r.namesOf c.deps⟩

/-- The components of a registry without their places. -/
def outlines (r : Registry I) : List Outline := r.components.map r.outline

/-- Dependencies are places of components. -/
def DepsInside (r : Registry I) : Prop := ∀ c ∈ r.components, ∀ d ∈ c.deps, d < r.size

/-- The style sheets that a registry has gathered for a component. -/
def stylesAt (r : Registry I) (name : String) : List String :=
  ((r.find? name).map (·.styles)).getD []

/-- The instance that a registry has of a component. -/
def instanceAt? (r : Registry I) (name : String) : Option I := (r.find? name).bind (·.built?)

theorem find?_name {id : Nat} {c : Component I} (h : r.components[id]? = some c) :
    r.find? c.name = some c := by
  rw [find?, idOf?_eq_some.2 ⟨c, h, rfl⟩]
  exact h

theorem find?_eq_some {name : String} {c : Component I} (h : r.find? name = some c) :
    ∃ id : Nat, r.components[id]? = some c ∧ c.name = name := by
  obtain ⟨id, hid, hc⟩ := Option.bind_eq_some_iff.1 h
  obtain ⟨d, hd, rfl⟩ := idOf?_eq_some.1 hid
  obtain rfl := Option.some.inj (hd.symm.trans hc)
  exact ⟨id, hd, rfl⟩

theorem nameAt_mem_namesOf {ids : List Nat} {id : Nat} (h : id ∈ ids) :
    r.nameAt id ∈ r.namesOf ids := List.mem_map_of_mem h

/-- Passes that find out other things leave outlines alone. -/
theorem SameBut.outlines_eq {strip : Component I → Component I} (h : SameBut strip r r')
    (hstrip : ∀ c, ((strip c).name, (strip c).blocks, (strip c).exports, (strip c).deps) =
      (c.name, c.blocks, c.exports, c.deps)) : r'.outlines = r.outlines := by
  have hnames := h.map_eq (·.name) fun c => congrArg Prod.fst (hstrip c)
  have hnameAt : r'.nameAt = r.nameAt := by
    funext id
    rw [nameAt, nameAt, ← List.getElem?_map, ← List.getElem?_map, hnames]
  have hmap := h.map_eq (fun c => (c.name, c.blocks, c.exports, c.deps)) hstrip
  -- an outline sees four things of a component, and these are the same
  have hview : ∀ s : Registry I, s.outlines =
      (s.components.map fun c => (c.name, c.blocks, c.exports, c.deps)).map fun view =>
        ⟨view.1, view.2.1.template, view.2.2.1, view.2.2.2.map s.nameAt⟩ := by
    intro s
    rw [List.map_map]
    rfl
  rw [hview, hview, hmap, hnameAt]

theorem SameBut.depsInside {strip : Component I → Component I} (h : SameBut strip r r')
    (hstrip : ∀ c, (strip c).deps = c.deps) (hall : r.DepsInside) : r'.DepsInside := by
  intro c' hc' d hd
  obtain ⟨c, hc, heq⟩ := h.exists_mem (·.deps) hstrip hc'
  rw [h.size_eq]
  exact hall c hc d (heq ▸ hd)

theorem depsInside_of_hasDeps (h : ∀ c ∈ r.components, r.HasDeps c) : r.DepsInside := by
  intro c hc d hd
  obtain ⟨c', hc'⟩ := (h c hc).exists_component hd
  exact (List.getElem?_eq_some_iff.1 hc').1

theorem depsInside_link (r : Registry I) : r.link.DepsInside := depsInside_of_hasDeps r.hasDeps_link

/-- The tags that name components lead to these names again. -/
theorem namesOf_resolveTags (tags : List String) :
    r.namesOf (r.resolveTags tags) = tags.filter (· ∈ r.components.map (·.name)) := by
  induction tags with
  | nil => rfl
  | cons tag tags ih =>
    rw [namesOf, resolveTags] at ih
    rw [namesOf, resolveTags]
    cases hid : r.idOf? tag with
    | none =>
      have hnot : tag ∉ r.components.map (·.name) := by
        intro hmem
        obtain ⟨c, hc, rfl⟩ := List.mem_map.1 hmem
        obtain ⟨id, hget⟩ := List.getElem?_of_mem hc
        rw [idOf?_eq_some.2 ⟨c, hget, rfl⟩] at hid
        cases hid
      rw [List.filterMap_cons_none hid, List.filter_cons_of_neg (by simpa using hnot), ih]
    | some id =>
      obtain ⟨c, hc, rfl⟩ := idOf?_eq_some.1 hid
      have hmem : c.name ∈ r.components.map (·.name) :=
        List.mem_map_of_mem (List.mem_of_getElem? hc)
      rw [List.filterMap_cons_some hid, List.map_cons, nameAt_eq hc,
        List.filter_cons_of_pos (by simpa using hmem), ih]

/-- Linking finds the outlines in the components themselves and the names of them all. -/
theorem outlines_link (r : Registry I) : r.link.outlines = r.components.map fun c =>
    ⟨c.name, c.blocks.template, c.exports, c.tags.filter (· ∈ r.components.map (·.name))⟩ := by
  have hnameAt : r.link.nameAt = r.nameAt := by
    funext id
    rw [nameAt, nameAt, link, withComponents, List.getElem?_map]
    cases r.components[id]? <;> rfl
  have hnamesOf : r.link.namesOf = r.namesOf := by
    funext ids
    rw [namesOf, namesOf, hnameAt]
  have hmap : r.link.outlines = (r.components.map fun c =>
      { c with deps := r.resolveTags c.tags }).map r.link.outline := rfl
  rw [hmap, List.map_map]
  refine List.map_congr_left fun c _ => ?_
  rw [Function.comp_apply, outline, hnamesOf, namesOf_resolveTags]

/-! ## Circles -/

theorem depends_of_dependsOn {i j : Nat} (h : r.graph.DependsOn i j) :
    Depends r.outlines (r.nameAt i) (r.nameAt j) := by
  obtain ⟨c, hc, hj⟩ := dependsOn_iff.1 h
  exact ⟨r.outline c, List.mem_map_of_mem (List.mem_of_getElem? hc), (nameAt_eq hc).symm,
    nameAt_mem_namesOf hj⟩

theorem exists_dependsOn (hdeps : r.DepsInside) {user used : String}
    (h : Depends r.outlines user used) : ∃ i j, i < r.size ∧ j < r.size ∧ r.nameAt i = user ∧
      r.nameAt j = used ∧ r.graph.DependsOn i j := by
  obtain ⟨o, ho, rfl, hused⟩ := h
  obtain ⟨c, hc, rfl⟩ := List.mem_map.1 ho
  obtain ⟨i, hi⟩ := List.getElem?_of_mem hc
  obtain ⟨j, hj, rfl⟩ := List.mem_map.1 hused
  exact ⟨i, j, (List.getElem?_eq_some_iff.1 hi).1, hdeps c hc j hj, nameAt_eq hi, rfl,
    dependsOn_iff.2 ⟨c, hi, hj⟩⟩

/-- A way along names is a way along places. -/
theorem exists_transGen (hdeps : r.DepsInside) {user used : String}
    (h : TransGen (Depends r.outlines) user used) : ∃ i j, i < r.size ∧ j < r.size ∧
      r.nameAt i = user ∧ r.nameAt j = used ∧ TransGen r.graph.DependsOn i j := by
  induction h with
  | single h =>
    obtain ⟨i, j, hi, hj, hname, hname', hij⟩ := exists_dependsOn hdeps h
    exact ⟨i, j, hi, hj, hname, hname', .single hij⟩
  | tail _ h ih =>
    obtain ⟨i, j, hi, hj, hname, hmiddle, hij⟩ := ih
    obtain ⟨j', k, hj', hk, hmiddle', hname', hjk⟩ := exists_dependsOn hdeps h
    obtain rfl := nameAt_injOn hj hj' (hmiddle.trans hmiddle'.symm)
    exact ⟨i, k, hi, hk, hname, hname', .tail hij hjk⟩

/-- Outlines tell whether components use each other in a circle. -/
theorem acyclic_iff_outlines (hdeps : r.DepsInside) :
    r.graph.Acyclic ↔ ∀ name, ¬ TransGen (Depends r.outlines) name name := by
  constructor
  · intro hacyclic name hname
    obtain ⟨i, j, hi, hj, hname, hname', hij⟩ := exists_transGen hdeps hname
    obtain rfl := nameAt_injOn hi hj (hname.trans hname'.symm)
    exact hacyclic i hij
  · intro hnames i hi
    exact hnames (r.nameAt i) (hi.lift r.nameAt fun _ _ => depends_of_dependsOn)

/-! ## What follows from what is used -/

/-- **Induction along dependencies, by name.** A property of names that each component has if those
have it that it uses is one that all components have. -/
theorem outlines_induction (hacyclic : r.graph.Acyclic) (hdeps : r.DepsInside)
    {P : String → Prop} (h : ∀ o ∈ r.outlines, (∀ name ∈ o.used, P name) → P o.name) :
    ∀ o ∈ r.outlines, P o.name := by
  obtain ⟨order, horder⟩ := postOrder_isOk_iff.2 hacyclic
  obtain ⟨hsorted, -, hall⟩ := postOrder_ok horder
  have hplaces : ∀ id ∈ order, ∀ c, r.components[id]? = some c → P c.name := by
    clear horder hall
    induction hsorted with
    | nil => exact fun _ hid => absurd hid List.not_mem_nil
    | @concat order v hbefore hmet ih =>
      intro id hid c hc
      rcases List.mem_append.1 hid with hid | hid
      · exact ih id hid c hc
      · obtain rfl := List.mem_singleton.1 hid
        refine h (r.outline c) (List.mem_map_of_mem (List.mem_of_getElem? hc)) fun name hname => ?_
        obtain ⟨d, hd, rfl⟩ := List.mem_map.1 hname
        -- `d` is a place of the order before `c`
        have hlt := hdeps c (List.mem_of_getElem? hc) d hd
        have hget := List.getElem?_eq_getElem hlt
        have hbehind := hmet d (dependsOn_iff.2 ⟨c, hc, hd⟩) (r.size_graph.symm ▸ hlt)
        rw [nameAt_eq hget]
        exact ih d hbehind _ hget
  intro o ho
  obtain ⟨c, hc, rfl⟩ := List.mem_map.1 ho
  obtain ⟨id, hid⟩ := List.getElem?_of_mem hc
  exact hplaces id ((hall id).2 (List.getElem?_eq_some_iff.1 hid).1) c hid

/-- The style sheets of components are one thing only. -/
theorem styledBy_unique (hacyclic : r.graph.Acyclic) (hdeps : r.DepsInside)
    {styles styles' : String → List String} (h : StyledBy r.outlines styles)
    (h' : StyledBy r.outlines styles') : ∀ o ∈ r.outlines, styles o.name = styles' o.name := by
  refine outlines_induction hacyclic hdeps (P := fun name => styles name = styles' name) ?_
  intro o ho hused
  rw [h o ho, h' o ho, List.flatMap_congr hused]

/-- The instances of components are one thing only. -/
theorem solves_unique (hacyclic : r.graph.Acyclic) (hdeps : r.DepsInside)
    {inst? inst?' : String → Option I} (h : Solves make r.outlines inst?)
    (h' : Solves make r.outlines inst?') : ∀ o ∈ r.outlines, inst? o.name = inst?' o.name := by
  refine outlines_induction hacyclic hdeps (P := fun name => inst? name = inst?' name) ?_
  intro o ho hused
  obtain ⟨i, hi, hmake⟩ := h o ho
  obtain ⟨i', hi', hmake'⟩ := h' o ho
  rw [Outline.spec_congr hused, hmake'] at hmake
  rw [hi, hi', Except.ok.inj hmake]

/-! ## What the passes find out, by name -/

theorem styledBy_stylesAt (hdeps : r.DepsInside) (hall : ∀ c ∈ r.components, HasStyles r c) :
    StyledBy r.outlines r.stylesAt := by
  intro o ho
  obtain ⟨c, hc, rfl⟩ := List.mem_map.1 ho
  obtain ⟨id, hid⟩ := List.getElem?_of_mem hc
  have hused : (r.namesOf c.deps).flatMap r.stylesAt =
      c.deps.flatMap fun id => (r.components[id]?.map (·.styles)).getD [] := by
    rw [namesOf, List.flatMap_map]
    refine List.flatMap_congr fun d hd => ?_
    have hget := List.getElem?_eq_getElem (hdeps c hc d hd)
    rw [nameAt_eq hget, stylesAt, find?_name hget, hget]
  have hstyles : r.stylesAt c.name = c.styles := by
    rw [stylesAt, find?_name hid]
    rfl
  rw [outline, hused, hstyles]
  exact hall c hc

/-- Instances are found by places as they are by names. -/
theorem specOf_eq {c : Component I} (hdeps : ∀ d ∈ c.deps, d < r.size) :
    r.specOf c = (r.outline c).spec r.instanceAt? := by
  rw [specOf, instancesOf, Outline.spec, outline, namesOf, List.filterMap_map]
  congr 2
  refine List.filterMap_congr fun d hd => ?_
  obtain ⟨c', hget⟩ : ∃ c', r.components[d]? = some c' :=
    ⟨_, List.getElem?_eq_getElem (hdeps d hd)⟩
  rw [Function.comp_apply, nameAt_eq hget, instanceAt?, find?_name hget, hget]
  exact Option.map_eq_bind.symm

theorem solves_instanceAt? (hdeps : r.DepsInside)
    (hall : ∀ c ∈ r.components, HasInstance make r c) : Solves make r.outlines r.instanceAt? := by
  intro o ho
  obtain ⟨c, hc, rfl⟩ := List.mem_map.1 ho
  obtain ⟨id, hid⟩ := List.getElem?_of_mem hc
  obtain ⟨i, hi, hmake⟩ := hall c hc
  refine ⟨i, ?_, ?_⟩
  · rw [outline, instanceAt?, find?_name hid]
    exact hi
  · rw [← specOf_eq (hdeps c hc), hmake]

/-- A component gets the instance that solves the equations, once those that it uses have theirs. -/
theorem exists_make_of_solves {inst? : String → Option I} (hdeps : r.DepsInside)
    (hsolves : Solves make r.outlines inst?) {c : Component I} (hc : c ∈ r.components)
    (hbuilt : ∀ d ∈ c.deps, ∀ c', r.components[d]? = some c' → c'.built? = inst? c'.name) :
    ∃ i, inst? c.name = some i ∧ make (r.specOf c) = .ok i := by
  obtain ⟨i, hi, hmake⟩ := hsolves _ (List.mem_map_of_mem hc)
  have hused : ∀ name ∈ r.namesOf c.deps, r.instanceAt? name = inst? name := by
    intro name hname
    obtain ⟨d, hd, rfl⟩ := List.mem_map.1 hname
    have hget := List.getElem?_eq_getElem (hdeps c hc d hd)
    rw [nameAt_eq hget, instanceAt?, find?_name hget]
    exact hbuilt d hd _ hget
  refine ⟨i, hi, ?_⟩
  rw [specOf_eq (hdeps c hc), ← hmake]
  exact congrArg make (Outline.spec_congr hused)

/-- **Where instances can be made at all, making them does not fail.** Along a build order each
component gets the instance that solves the equations, because those that it uses have theirs by
then. -/
theorem materializeAll_of_solves {order : List Nat} {inst? : String → Option I}
    (hsorted : r.graph.Sorted order) (hnodup : order.Nodup) (hlt : ∀ id ∈ order, id < r.size)
    (hdeps : r.DepsInside) (hsolves : Solves make r.outlines inst?) :
    ∃ r₁, materializeAll make r order = (r₁, .ok ()) ∧
      ∀ id ∈ order, ∀ c, r₁.components[id]? = some c → c.built? = inst? c.name := by
  induction hsorted with
  | nil => exact ⟨r, rfl, fun _ hid => absurd hid List.not_mem_nil⟩
  | @concat order v hbefore hmet ih =>
    rw [List.nodup_append] at hnodup
    obtain ⟨hnodup, -, hnew⟩ := hnodup
    obtain ⟨r₁, hrun, hbuilt⟩ := ih hnodup fun id hid => hlt id (List.mem_append_left _ hid)
    have hsame := sameBut_materializeAll make order r
    rw [hrun] at hsame
    have hdeps₁ : r₁.DepsInside := hsame.depsInside (fun _ => rfl) hdeps
    have hsolves₁ : Solves make r₁.outlines inst? := by
      rwa [hsame.outlines_eq fun _ => rfl]
    have hv : v < r₁.size := hsame.size_eq ▸ hlt v (by simp)
    have hget : r₁.components[v]? = some r₁.components[v] := List.getElem?_eq_getElem hv
    have hc := List.mem_of_getElem? hget
    obtain ⟨i, hi, hmake⟩ := exists_make_of_solves hdeps₁ hsolves₁ hc fun d hd => by
      -- what the last component uses stands before it in the order
      refine hbuilt d (hmet d ?_ ?_)
      · rw [← hsame.graph_eq fun _ => rfl]
        exact dependsOn_iff.2 ⟨_, hget, hd⟩
      · rw [size_graph, ← hsame.size_eq]
        exact hdeps₁ _ hc d hd
    refine ⟨r₁.equip v i, ?_, fun id hid c hcid => ?_⟩
    · rw [materializeAll_append, hrun]
      dsimp only
      rw [materializeAll, hget]
      dsimp only
      rw [hmake]
      rfl
    · rw [equip, getElem?_modify] at hcid
      rcases List.mem_append.1 hid with hid | hid
      · have hne : v ≠ id := fun heq => hnew id hid v (List.mem_singleton_self v) heq.symm
        rw [if_neg hne] at hcid
        exact hbuilt id hid c hcid
      · obtain rfl := List.mem_singleton.1 hid
        rw [if_pos rfl, hget, Option.map_some, Option.some.injEq] at hcid
        rw [← hcid]
        exact hi.symm

/-! ## Preparing, by outlines -/

/-- What a registry is once it has been prepared. -/
structure Prepared (make : Template.Spec I → Except RenderError I) (r p : Registry I) : Prop where
  /-- no component uses itself, be it through others -/
  acyclic : p.graph.Acyclic
  /-- dependencies are places of components -/
  depsInside : p.DepsInside
  /-- it has the outlines that linking finds -/
  outlines_eq : p.outlines = r.link.outlines
  /-- it has the style sheets of each component -/
  styled : StyledBy p.outlines p.stylesAt
  /-- it has the instance of each component -/
  solved : Solves make p.outlines p.instanceAt?

theorem outlines_styledAlong (r : Registry I) (order : List Nat) :
    (r.styledAlong order).outlines = r.link.outlines :=
  (sameBut_foldl_styleOne order r.checked).outlines_eq fun _ => rfl

theorem depsInside_styledAlong (r : Registry I) (order : List Nat) :
    (r.styledAlong order).DepsInside :=
  (sameBut_foldl_styleOne order r.checked).depsInside (fun _ => rfl) r.depsInside_link

/-- What can come of preparing a registry without circles: an instance cannot be made, or all is
there. -/
theorem prepareAlong_cases (make : Template.Spec I → Except RenderError I) (r : Registry I)
    (order : List Nat) :
    (∃ path cause, (r.prepareAlong make order).2 = .error (.render path cause) ∧
        ∃ e, (materializeAll make (r.styledAlong order) order).2 = .error e) ∨
      ∃ r₁, materializeAll make (r.styledAlong order) order = (r₁, .ok ()) ∧
        r.prepareAlong make order = ({ r₁ with stage := .materialized }, .ok ()) ∧
          r₁.outlines = r.link.outlines := by
  rcases hall : materializeAll make (r.styledAlong order) order with ⟨r₁, e | _⟩
  · obtain ⟨path, cause, rfl⟩ := materializeAll_error (e := e) (by rw [hall])
    exact .inl ⟨path, cause, by rw [prepareAlong, hall], _, rfl⟩
  · have hsame := sameBut_materializeAll make order (r.styledAlong order)
    rw [hall] at hsame
    refine .inr ⟨r₁, rfl, by rw [prepareAlong, hall], ?_⟩
    rw [hsame.outlines_eq fun _ => rfl, outlines_styledAlong]

theorem prepared_of_ok {p : Registry I} (h : r.prepare make = (p, .ok ())) : Prepared make r p := by
  have hpromise : Promise make (r.prepare make).1 := promise_prepare r
  rw [h] at hpromise
  have hstage := stage_of_prepare_ok h
  have hdeps := depsInside_of_hasDeps (hpromise.linked (by rw [hstage]; decide))
  have houtlines : p.outlines = r.link.outlines := by
    rcases hcheck : r.link.checkCycles with e | checked
    · rw [prepare, hcheck] at h
      cases h
    · obtain ⟨order, horder⟩ := postOrder_isOk_iff.2 (checkCycles_eq_ok hcheck).2.1
      rw [prepare_eq_prepareAlong horder] at h
      obtain ⟨path, cause, herror, -⟩ | ⟨r₁, -, hok, heq⟩ := prepareAlong_cases make r order
      · rw [h] at herror
        cases herror
      · rw [h] at hok
        cases hok
        exact heq
  exact ⟨hpromise.acyclic (by rw [hstage]; decide), hdeps, houtlines,
    styledBy_stylesAt hdeps (hpromise.hasStyles (by rw [hstage]; decide)),
    solves_instanceAt? hdeps (hpromise.hasInstance (by rw [hstage]; decide))⟩

/-- Preparing stops at a circle if there is one. -/
theorem prepare_of_not_acyclic (make : Template.Spec I → Except RenderError I)
    (h : ¬ r.link.graph.Acyclic) : ∃ names, (r.prepare make).2 = .error (.cycle names) := by
  rcases hcheck : r.link.checkCycles with e | checked
  · obtain ⟨names, rfl⟩ := checkCycles_eq_error hcheck (Nat.le_refl _)
    exact ⟨names, by rw [prepare, hcheck]⟩
  · exact absurd (checkCycles_eq_ok hcheck).2.1 h

/-- Without a circle, preparing succeeds where the equations for instances can be solved, and
otherwise an instance cannot be made. -/
theorem prepare_of_acyclic (make : Template.Spec I → Except RenderError I)
    (h : r.link.graph.Acyclic) :
    (∃ p, r.prepare make = (p, .ok ())) ∨
      (∃ path cause, (r.prepare make).2 = .error (.render path cause)) ∧
        ∀ inst?, ¬ Solves make r.link.outlines inst? := by
  obtain ⟨order, horder⟩ := postOrder_isOk_iff.2 h
  rw [prepare_eq_prepareAlong horder]
  obtain ⟨path, cause, herror, e, hall⟩ | ⟨r₁, -, hok, -⟩ := prepareAlong_cases make r order
  · refine .inr ⟨⟨path, cause, herror⟩, fun inst? hsolves => ?_⟩
    obtain ⟨hsorted, hnodup, hmem⟩ := postOrder_ok (postOrder_styledAlong horder)
    rw [← outlines_styledAlong r order] at hsolves
    obtain ⟨r₁, hrun, -⟩ := materializeAll_of_solves hsorted hnodup (fun id hid => (hmem id).1 hid)
      (depsInside_styledAlong r order) hsolves
    rw [hrun] at hall
    cases hall
  · exact .inl ⟨_, hok⟩

/-! ## Preparing in another order -/

/-- Two preparations end alike: both succeed, both meet a circle, or in both an instance cannot be
made. -/
inductive EndAlike : Except BuildError Unit → Except BuildError Unit → Prop where
  /-- both succeed -/
  | ok : EndAlike (.ok ()) (.ok ())
  /-- both meet a circle, perhaps another one -/
  | cycle (names names' : List String) : EndAlike (.error (.cycle names)) (.error (.cycle names'))
  /-- in both an instance cannot be made, perhaps of another component -/
  | render (path path' : Path) (cause cause' : RenderError) :
      EndAlike (.error (.render path cause)) (.error (.render path' cause'))

/-- The outcome of preparing follows from the outlines. -/
theorem endAlike_prepare (make : Template.Spec I → Except RenderError I)
    (h : r.link.outlines.Perm r'.link.outlines) :
    EndAlike (r.prepare make).2 (r'.prepare make).2 := by
  have hdepends : Depends r.link.outlines = Depends r'.link.outlines := by
    funext user used
    simp only [Depends, h.mem_iff]
  have hacyclic : r.link.graph.Acyclic ↔ r'.link.graph.Acyclic := by
    rw [acyclic_iff_outlines r.depsInside_link, acyclic_iff_outlines r'.depsInside_link, hdepends]
  have hsolves : ∀ inst?, Solves make r.link.outlines inst? ↔ Solves make r'.link.outlines inst? :=
    fun inst? => by simp only [Solves, h.mem_iff]
  by_cases hc : r.link.graph.Acyclic
  · obtain ⟨p, hok⟩ | ⟨⟨path, cause, herror⟩, hnone⟩ := prepare_of_acyclic make hc
    · obtain ⟨p', hok'⟩ | ⟨-, hnone'⟩ := prepare_of_acyclic make (hacyclic.1 hc)
      · rw [hok, hok']
        exact .ok
      · have hprepared := prepared_of_ok hok
        refine absurd ((hsolves _).1 ?_) (hnone' p.instanceAt?)
        rw [← hprepared.outlines_eq]
        exact hprepared.solved
    · obtain ⟨p', hok'⟩ | ⟨⟨path', cause', herror'⟩, -⟩ :=
        prepare_of_acyclic make (hacyclic.1 hc)
      · have hprepared := prepared_of_ok hok'
        refine absurd ((hsolves _).2 ?_) (hnone p'.instanceAt?)
        rw [← hprepared.outlines_eq]
        exact hprepared.solved
      · rw [herror, herror']
        exact .render ..
  · obtain ⟨names, herror⟩ := prepare_of_not_acyclic make hc
    obtain ⟨names', herror'⟩ := prepare_of_not_acyclic make fun hc' => hc (hacyclic.2 hc')
    rw [herror, herror']
    exact .cycle ..

/-- What preparing finds out about a component follows from the outlines. -/
theorem Prepared.find?_alike {p p' : Registry I} (h : Prepared make r p)
    (h' : Prepared make r' p') (hperm : r.link.outlines.Perm r'.link.outlines) {name : String}
    {c : Component I} (hc : p.find? name = some c) :
    ∃ c', p'.find? name = some c' ∧ p'.namesOf c'.deps = p.namesOf c.deps ∧ c'.styles = c.styles ∧
      ∃ i, c.built? = some i ∧ c'.built? = some i := by
  have houtlines : p.outlines.Perm p'.outlines := by rwa [h.outlines_eq, h'.outlines_eq]
  obtain ⟨id, hid, rfl⟩ := Registry.find?_eq_some hc
  have ho : p.outline c ∈ p.outlines := List.mem_map_of_mem (List.mem_of_getElem? hid)
  obtain ⟨c', hc', heq⟩ := List.mem_map.1 (houtlines.mem_iff.1 ho)
  obtain ⟨id', hid'⟩ := List.getElem?_of_mem hc'
  have hname : c'.name = c.name := congrArg Outline.name heq
  have hfind : p'.find? c.name = some c' := hname ▸ find?_name hid'
  -- what the second registry has fits the outlines of the first one as well
  have hstyled : StyledBy p.outlines p'.stylesAt :=
    fun o ho => h'.styled o (houtlines.mem_iff.1 ho)
  have hsolved : Solves make p.outlines p'.instanceAt? :=
    fun o ho => h'.solved o (houtlines.mem_iff.1 ho)
  have hstyles : p.stylesAt c.name = p'.stylesAt c.name :=
    styledBy_unique h.acyclic h.depsInside h.styled hstyled _ ho
  have hinst : p.instanceAt? c.name = p'.instanceAt? c.name :=
    solves_unique h.acyclic h.depsInside h.solved hsolved _ ho
  obtain ⟨i, hi, -⟩ := h.solved _ ho
  have hi' : p'.instanceAt? c.name = some i := hinst.symm.trans hi
  refine ⟨c', hfind, congrArg Outline.used heq, ?_, i, ?_, ?_⟩
  · rw [stylesAt, stylesAt, hc, hfind] at hstyles
    exact hstyles.symm
  · change p.instanceAt? c.name = some i at hi
    rw [instanceAt?, hc] at hi
    exact hi
  · rw [instanceAt?, hfind] at hi'
    exact hi'

/-- Components with names of their own can be entered one after the other. -/
theorem foldlM_insert {cs : List (Component I)}
    (h : ((r.components ++ cs).map (·.name)).Nodup) :
    ∃ r', cs.foldlM insert r = .ok r' ∧ r'.components = r.components ++ cs := by
  induction cs generalizing r with
  | nil => exact ⟨r, rfl, (List.append_nil _).symm⟩
  | cons c cs ih =>
    have hnone : r.find? c.name = none := by
      rw [find?_eq_none]
      by_contra hsome
      obtain ⟨id, hid⟩ := Option.ne_none_iff_exists'.1 hsome
      obtain ⟨c', hc', hname⟩ := idOf?_eq_some.1 hid
      rw [List.map_append, List.nodup_append] at h
      exact h.2.2 _ (List.mem_map_of_mem (List.mem_of_getElem? hc')) _
        (List.mem_map_of_mem List.mem_cons_self) hname
    obtain ⟨r₁, hinsert, hcomponents⟩ :
        ∃ r₁, r.insert c = .ok r₁ ∧ r₁.components = r.components ++ [c] := by
      rw [insert]
      split
      · next first hfirst =>
        rw [hnone] at hfirst
        cases hfirst
      · exact ⟨_, rfl, rfl⟩
    have hmove : r₁.components ++ cs = r.components ++ c :: cs := by rw [hcomponents]; simp
    obtain ⟨r', hfold, hall⟩ := ih (r := r₁) (by rwa [hmove])
    refine ⟨r', ?_, by rw [hall, hmove]⟩
    rw [List.foldlM_cons, hinsert]
    exact hfold

theorem outlines_link_perm (h : r.components.Perm r'.components) :
    r.link.outlines.Perm r'.link.outlines := by
  have hnames : ∀ tag, (tag ∈ r.components.map (·.name)) ↔ tag ∈ r'.components.map (·.name) :=
    fun tag => (h.map _).mem_iff
  rw [outlines_link, outlines_link]
  simp only [hnames]
  exact h.map _

/-- **The order in which components are entered does not matter.** Components with names of their
own are entered in any two orders. Then preparing them ends alike, and when it succeeds, every
component has by name the same dependencies in the same order, the same style sheets, and an
instance that is rendered to the same text or the same error whatever the data. -/
theorem prepare_perm {cs cs' : List (Component Instance)} (hperm : cs.Perm cs')
    (hnodup : (cs.map (·.name)).Nodup) :
    ∃ r r', cs.foldlM insert {} = .ok r ∧ cs'.foldlM insert {} = .ok r' ∧
      EndAlike (r.prepare Template.instantiate).2 (r'.prepare Template.instantiate).2 ∧
      ∀ p, r.prepare Template.instantiate = (p, .ok ()) →
        ∃ p', r'.prepare Template.instantiate = (p', .ok ()) ∧
          ∀ c ∈ cs, ∃ d d', p.find? c.name = some d ∧ p'.find? c.name = some d' ∧
            p'.namesOf d'.deps = p.namesOf d.deps ∧ d'.styles = d.styles ∧
            ∃ i i', d.built? = some i ∧ d'.built? = some i' ∧
              ∀ data, Template.render i' data = Template.render i data := by
  have hnodup' : (cs'.map (·.name)).Nodup := (hperm.map _).nodup_iff.1 hnodup
  obtain ⟨r, hr, hcs⟩ : ∃ r, cs.foldlM insert {} = .ok r ∧ r.components = cs :=
    foldlM_insert hnodup
  obtain ⟨r', hr', hcs'⟩ : ∃ r, cs'.foldlM insert {} = .ok r ∧ r.components = cs' :=
    foldlM_insert hnodup'
  have houtlines : r.link.outlines.Perm r'.link.outlines := by
    refine outlines_link_perm ?_
    rw [hcs, hcs']
    exact hperm
  have halike := endAlike_prepare Template.instantiate houtlines
  refine ⟨r, r', hr, hr', halike, fun p hp => ?_⟩
  rcases hp' : r'.prepare Template.instantiate with ⟨p', e | _⟩
  · rw [hp, hp'] at halike
    cases halike
  refine ⟨p', rfl, fun c hc => ?_⟩
  have hprepared := prepared_of_ok hp
  have hnames : c.name ∈ p.outlines.map (·.name) := by
    rw [hprepared.outlines_eq, outlines_link, List.map_map, hcs]
    exact List.mem_map_of_mem hc
  rw [outlines, List.map_map] at hnames
  obtain ⟨d, hd, hname⟩ := List.mem_map.1 hnames
  obtain ⟨id, hid⟩ := List.getElem?_of_mem hd
  have hfind : p.find? c.name = some d := by
    rw [← hname]
    exact find?_name hid
  obtain ⟨d', hfind', hdeps, hstyles, i, hi, hi'⟩ :=
    hprepared.find?_alike (prepared_of_ok hp') houtlines hfind
  exact ⟨d, d', hfind, hfind', hdeps, hstyles, i, i, hi, hi', fun _ => rfl⟩

/-- A component and, behind it, the one that it uses. -/
def userAndUsed : List (Component Instance) :=
  [Site.sheeted "A" "<B/>" ["a.css"], Site.sheeted "B" "b" ["b.css"]]

/-- `A` has the same style sheets when `B`, which it uses, is entered before it. -/
theorem prepare_perm_userAndUsed : userAndUsed.Perm userAndUsed.reverse ∧
    (userAndUsed.map (·.name)).Nodup ∧ userAndUsed.foldlM insert {} = .ok Site.chained ∧
      ∃ r' p', userAndUsed.reverse.foldlM insert {} = .ok r' ∧
        r'.prepare Template.instantiate = (p', .ok ()) ∧
          ∃ c, p'.find? "A" = some c ∧ c.styles = ["a.css", "b.css"] := by
  have hperm : userAndUsed.Perm userAndUsed.reverse := (List.reverse_perm userAndUsed).symm
  have hnodup : (userAndUsed.map (·.name)).Nodup := by decide
  have hentered : userAndUsed.foldlM insert {} = .ok Site.chained := rfl
  have hstyles : (Site.styledSite.registry.find? "A").map (·.styles) = some ["a.css", "b.css"] := by
    decide +kernel
  obtain ⟨r, r', hr, hr', -, hsame⟩ := prepare_perm hperm hnodup
  obtain rfl : Site.chained = r := Except.ok.inj (hentered.symm.trans hr)
  obtain ⟨p', hp', hall⟩ := hsame _ Site.prepare_chained
  obtain ⟨c, c', hc, hc', -, heq, -⟩ := hall _ List.mem_cons_self
  refine ⟨hperm, hnodup, hentered, r', p', hr', hp', c', hc', ?_⟩
  have hfind : Site.styledSite.registry.find? "A" = some c := hc
  rw [hfind] at hstyles
  rw [heq]
  exact Option.some.inj hstyles

end Registry

end StaticSite
