import StaticSite.Proofs.Stages

/-!
# Style sheets, unfolded

What a component uses can be written out as a list: the component, then each of those that it depends
on, written out in the same way (`Graph.tour`). Whoever is used twice stands there twice. The
style sheets that these components declare, in this order, are the *unfolding* of the component.

`aggregateStyles` never writes anything out: it puts together lists that are already free of repeats,
along the build order. It comes to the same, because repeats may be left out early.
-/

namespace StaticSite

open Relation (ReflTransGen)
open Text

namespace Stage

theorem le_later (a b : Stage) : b ≤ a.later b := by
  rw [later]
  split
  · exact Nat.le_refl _
  · next h => exact Nat.le_of_not_le h

theorem later_eq_left {a b : Stage} (h : b ≤ a) : a.later b = a := by
  revert h
  cases a <;> cases b <;> decide

end Stage

namespace Graph

variable {g : Graph}

/-! ## Tours -/

/-- A vertex and what it depends on, written out, through so many dependencies. -/
def tourTo (g : Graph) : Nat → Nat → List Nat
  | 0, v => [v]
  | depth + 1, v => v :: (g.next v).flatMap (g.tourTo depth)

/-- A vertex and all that it depends on, written out. No way along dependencies is longer than there
are vertices, unless it goes around a circle. -/
def tour (g : Graph) (v : Nat) : List Nat := g.tourTo g.size v

theorem next_of_size_le {v : Nat} (h : g.size ≤ v) : g.next v = [] := by
  rw [next, List.getElem?_eq_none h, Option.getD_none]

theorem tourTo_of_size_le {v : Nat} (h : g.size ≤ v) (depth : Nat) : g.tourTo depth v = [v] := by
  cases depth with
  | zero => rfl
  | succ depth => rw [tourTo, next_of_size_le h, List.flatMap_nil]

/-- Vertices of a sorted list are written out when the depth is the length of the list. -/
theorem Sorted.tourTo_succ {order : List Nat} (h : g.Sorted order) {v depth : Nat}
    (hv : v ∈ order) (hdepth : order.length ≤ depth) :
    g.tourTo (depth + 1) v = g.tourTo depth v := by
  induction h generalizing v depth with
  | nil => exact absurd hv List.not_mem_nil
  | @concat order u hbefore hmet ih =>
    rw [List.length_append, List.length_singleton] at hdepth
    obtain ⟨depth, rfl⟩ : ∃ n, depth = n + 1 := ⟨depth - 1, by omega⟩
    rcases List.mem_append.1 hv with hv | hv
    · exact ih hv (by omega)
    · obtain rfl := List.mem_singleton.1 hv
      rw [tourTo, tourTo]
      congr 1
      refine List.flatMap_congr fun d hd => ?_
      rcases Nat.lt_or_ge d g.size with hlt | hge
      · exact ih (hmet d hd hlt) (by omega)
      · rw [tourTo_of_size_le hge, tourTo_of_size_le hge]

/-- **A tour is a vertex, and then the tours of what it depends on.** -/
theorem tour_eq (h : g.Acyclic) (v : Nat) : g.tour v = v :: (g.next v).flatMap g.tour := by
  obtain ⟨order, horder⟩ := depthFirst_isOk_iff.2 h
  obtain ⟨hsorted, hnodup, hall⟩ := depthFirst_ok horder
  have hlength : order.length = g.size := by
    have hperm : order.Perm (List.range g.size) :=
      (List.perm_ext_iff_of_nodup hnodup List.nodup_range).2 fun v => by rw [hall, List.mem_range]
    rw [hperm.length_eq, List.length_range]
  have hstable : g.tourTo (g.size + 1) v = g.tourTo g.size v := by
    rcases Nat.lt_or_ge v g.size with hlt | hge
    · exact hsorted.tourTo_succ ((hall v).2 hlt) hlength.le
    · rw [tourTo_of_size_le hge, tourTo_of_size_le hge]
  rw [tour, ← hstable]
  rfl

/-- A tour meets what the vertex depends on, be it through others, and nothing else. -/
theorem mem_tour (h : g.Acyclic) {v w : Nat} : w ∈ g.tour v ↔ ReflTransGen g.DependsOn v w := by
  constructor
  · rw [tour]
    generalize g.size = depth
    intro hw
    induction depth generalizing v with
    | zero => rw [List.mem_singleton.1 hw]
    | succ depth ih =>
      rcases List.mem_cons.1 hw with rfl | hw
      · exact .refl
      · obtain ⟨d, hd, hw⟩ := List.mem_flatMap.1 hw
        exact .head hd (ih hw)
  · intro hvw
    induction hvw using ReflTransGen.head_induction_on with
    | refl =>
      rw [tour_eq h]
      exact List.mem_cons_self
    | head hd _ ih =>
      rw [tour_eq h]
      exact List.mem_cons_of_mem _ (List.mem_flatMap.2 ⟨_, hd, ih⟩)

end Graph

namespace Registry

variable {I : Type} {r : Registry I}

/-! ## Unfoldings -/

/-- The style sheets that the component at a place declares. -/
def declared (r : Registry I) (id : Nat) : List String :=
  (r.components[id]?.map (·.exports.styles)).getD []

/-- The style sheets that a component declares and those that its dependencies declare, in the order
in which they are written out, with repeats. -/
def unfolding (r : Registry I) (id : Nat) : List String := (r.graph.tour id).flatMap r.declared

theorem declared_eq {id : Nat} {c : Component I} (h : r.components[id]? = some c) :
    r.declared id = c.exports.styles := by
  rw [declared, h]
  rfl

theorem next_graph {id : Nat} {c : Component I} (h : r.components[id]? = some c) :
    r.graph.next id = c.deps := by
  rw [Graph.next, graph, List.getElem?_map, h]
  rfl

theorem unfolding_eq (hacyclic : r.graph.Acyclic) {id : Nat} {c : Component I}
    (h : r.components[id]? = some c) :
    r.unfolding id = c.exports.styles ++ c.deps.flatMap r.unfolding := by
  rw [unfolding, Graph.tour_eq hacyclic, List.flatMap_cons, List.flatMap_assoc, declared_eq h,
    next_graph h]
  rfl

theorem unfolding_of_size_le {id : Nat} (h : r.size ≤ id) : r.unfolding id = [] := by
  have hnone : r.components[id]? = none := List.getElem?_eq_none h
  rw [unfolding, Graph.tour, Graph.tourTo_of_size_le (by rwa [size_graph]), List.flatMap_singleton,
    declared, hnone]
  rfl

/-- A style sheet stands in an unfolding if and only if a component declares it that is used. -/
theorem mem_unfolding (hacyclic : r.graph.Acyclic) {id : Nat} {style : String} :
    style ∈ r.unfolding id ↔ ∃ d c, ReflTransGen r.graph.DependsOn id d ∧
      r.components[d]? = some c ∧ style ∈ c.exports.styles := by
  rw [unfolding, List.mem_flatMap]
  refine exists_congr fun d => ?_
  rw [Graph.mem_tour hacyclic, declared]
  cases r.components[d]? with
  | none => simp
  | some c => simp

/-- Unfoldings look at dependencies and at declared style sheets only. -/
theorem SameBut.unfolding_eq {r' : Registry I} (h : SameBut unstyled r r') :
    r'.unfolding = r.unfolding := by
  have hgraph := h.graph_eq fun _ => rfl
  have hmap := h.map_eq (·.exports.styles) fun _ => rfl
  have hdeclared : r'.declared = r.declared := by
    funext id
    rw [declared, declared, ← List.getElem?_map, ← List.getElem?_map, hmap]
  funext id
  rw [unfolding, unfolding, hgraph, hdeclared]

/-! ## What is gathered is what is unfolded -/

/-- Components that have gathered the style sheets of their dependencies have their unfoldings, each
style sheet once. -/
theorem styles_eq_distinct_unfolding (hacyclic : r.graph.Acyclic)
    (hall : ∀ c ∈ r.components, HasStyles r c) {id : Nat} {c : Component I}
    (h : r.components[id]? = some c) : c.styles = distinct (r.unfolding id) := by
  obtain ⟨order, horder⟩ := postOrder_isOk_iff.2 hacyclic
  obtain ⟨hsorted, -, hmem⟩ := postOrder_ok horder
  have hlt : id < r.size := (List.getElem?_eq_some_iff.1 h).1
  have hid : id ∈ order := (hmem id).2 hlt
  clear horder hmem
  induction hsorted generalizing id c with
  | nil => exact absurd hid List.not_mem_nil
  | @concat order v hbefore hmet ih =>
    rcases List.mem_append.1 hid with hid | hid
    · exact ih h hlt hid
    · obtain rfl := List.mem_singleton.1 hid
      -- the dependencies of the last component have their unfoldings by induction
      have hdeps : ∀ d ∈ c.deps, (r.components[d]?.map (·.styles)).getD [] =
          distinct (r.unfolding d) := by
        intro d hd
        rcases Nat.lt_or_ge d r.size with hd' | hge
        · have hget := List.getElem?_eq_getElem hd'
          rw [hget, ← ih hget hd' (hmet d (next_graph h ▸ hd) (r.size_graph.symm ▸ hd'))]
          rfl
        · have hnone : r.components[d]? = none := List.getElem?_eq_none hge
          rw [hnone, unfolding_of_size_le hge]
          rfl
      rw [hall c (List.mem_of_getElem? h), stylesOf, List.flatMap_congr hdeps,
        distinct_append_flatMap_distinct, unfolding_eq hacyclic h]

theorem hasStyles_of_postOrder {order : List Nat} (horder : r.postOrder = .ok order) :
    ∀ c ∈ (order.foldl styleOne r).components, HasStyles (order.foldl styleOne r) c := by
  obtain ⟨hsorted, hnodup, hall⟩ := postOrder_ok horder
  refine (hasStyles_foldl_styleOne hsorted hnodup).all fun id hid => (hall id).2 ?_
  rwa [← (sameBut_foldl_styleOne order r).size_eq]

/-- A pass over components that have all their style sheets changes nothing. -/
theorem aggregateStyles_eq_self (hs : .styled ≤ r.stage) (hacyclic : r.graph.Acyclic)
    (hall : ∀ c ∈ r.components, HasStyles r c) : r.aggregateStyles = .ok r := by
  obtain ⟨r', hok⟩ := aggregateStyles_isOk (Stage.le_trans (by decide) hs) hacyclic
  obtain ⟨-, order, -, rfl⟩ := aggregateStyles_eq_ok hok
  rw [hok]
  simp only [foldl_styleOne_eq_self order hall, Stage.later_eq_left hs]

/-- **Gathered style sheets are unfolded ones.** In a registry whose components do not use each other
in a circle, whatever style sheets they have been left with, the pass succeeds, changes nothing else,
and leaves each component with the first occurrences of its unfolding: what it declares, and then the
unfoldings of what it depends on. So

* no style sheet occurs twice;
* one occurs exactly if the component declares it or one that it uses, be it through others;
* what the component declares itself comes first, in the order in which it is declared;
* the pass finds the same if it is run again. -/
theorem aggregateStyles_eq_unfolding (r : Registry I) (hs : .checked ≤ r.stage)
    (hacyclic : r.graph.Acyclic) :
    ∃ r', r.aggregateStyles = .ok r' ∧ r'.components.map unstyled = r.components.map unstyled ∧
      (∀ (id : Nat) c, r.components[id]? = some c →
        r.unfolding id = c.exports.styles ++ c.deps.flatMap r.unfolding) ∧
      (∀ (id : Nat) c, r'.components[id]? = some c →
        c.styles = (r.unfolding id).eraseDups ∧ c.styles.Nodup ∧
        (∀ style, style ∈ c.styles ↔ ∃ d c', ReflTransGen r.graph.DependsOn id d ∧
          r.components[d]? = some c' ∧ style ∈ c'.exports.styles) ∧
        c.exports.styles.eraseDups <+: c.styles) ∧
      r'.aggregateStyles = .ok r' := by
  obtain ⟨r', hok⟩ := aggregateStyles_isOk hs hacyclic
  obtain ⟨-, order, horder, rfl⟩ := aggregateStyles_eq_ok hok
  have hsame := sameBut_foldl_styleOne order r
  have hacyclic' : (order.foldl styleOne r).graph.Acyclic :=
    hsame.graph_eq (fun _ => rfl) ▸ hacyclic
  refine ⟨_, hok, hsame.map_strip, fun id c hc => unfolding_eq hacyclic hc, fun id c hc => ?_,
    aggregateStyles_eq_self (Stage.le_later _ _) hacyclic' (hasStyles_of_postOrder horder)⟩
  have hstyles : c.styles = distinct (r.unfolding id) := by
    rw [← hsame.unfolding_eq]
    exact styles_eq_distinct_unfolding hacyclic' (hasStyles_of_postOrder horder) hc
  refine ⟨?_, ?_, fun style => ?_, ?_⟩
  · rw [hstyles, distinct_eq_eraseDups]
  · rw [hstyles]
    exact nodup_distinct _
  · rw [hstyles, mem_distinct]
    exact mem_unfolding hacyclic
  · rw [← distinct_eq_eraseDups, hstyles, ← hsame.unfolding_eq, unfolding_eq hacyclic' hc,
      distinct_append]
    exact prefix_extendNew _ _

/-- A component that declares style sheets and has been left with another one. -/
def stale (name template : String) (styles : List String) : Component Unit where
  name := name
  path := ⟨name⟩
  blocks := ⟨template, "", []⟩
  exports := { styles }
  styles := ["old.css"]

/-- `Top` uses `Left` and `Right`, and both use `Base`. -/
def diamond : Registry Unit :=
  after (fun _ => .ok ())
    [.insert (stale "Top" "<Left/><Right/>" ["base.css", "top.css"]),
      .insert (stale "Left" "<Base/>" ["left.css", "base.css"]),
      .insert (stale "Right" "<Base/>" ["right.css"]),
      .insert (stale "Base" "" ["base.css", "base.css", "reset.css"]), .link, .checkCycles]

/-- What `Top` is left with has nothing of what was there before. -/
theorem aggregateStyles_diamond : Stage.checked ≤ diamond.stage ∧ diamond.graph.Acyclic ∧
    ∃ r', diamond.aggregateStyles = .ok r' ∧ ∀ c, r'.components[0]? = some c →
      c.styles = ["base.css", "top.css", "left.css", "reset.css", "right.css"] := by
  have hs : Stage.checked ≤ diamond.stage := by
    have hstage : diamond.stage = .checked := by cbv
    rw [hstage]
    decide
  have hacyclic : diamond.graph.Acyclic := by
    have hfind : diamond.findCycle = none := by cbv
    exact findCycle_eq_none.1 hfind
  have htop : (diamond.unfolding 0).eraseDups =
      ["base.css", "top.css", "left.css", "reset.css", "right.css"] := by cbv
  obtain ⟨r', hok, -, -, hstyles, -⟩ := aggregateStyles_eq_unfolding diamond hs hacyclic
  exact ⟨hs, hacyclic, r', hok, fun c hc => (hstyles 0 c hc).1.trans htop⟩

end Registry

end StaticSite
