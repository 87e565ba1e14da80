import StaticSite.Component.Registry
import StaticSite.Proofs.DepthFirst

/-!
# Circles among components and the order of a build

What the walk finds, told of components: `findCycle` names a circle of components if there is one,
and `postOrder` lists all components behind those that they use if there is none. One walk decides
both, so the failure of the second reports the circle of the first.

A circle of places is a circle of names because no two components share a name.
-/

namespace StaticSite.Registry

variable {I : Type} {r : Registry I}

/-- One component depends on another one, told by their names. -/
def Uses (r : Registry I) (user used : String) : Prop :=
  ∃ c ∈ r.components, c.name = user ∧
    ∃ id ∈ c.deps, ∃ d, r.components[id]? = some d ∧ d.name = used

/-! ## Places and names -/

@[simp] theorem size_graph (r : Registry I) : r.graph.size = r.size := List.length_map _

/-- The edges of the graph are the dependencies of the components. -/
theorem dependsOn_iff {id d : Nat} :
    r.graph.DependsOn id d ↔ ∃ c, r.components[id]? = some c ∧ d ∈ c.deps := by
  simp only [Graph.DependsOn, Graph.next, graph, List.getElem?_map]
  cases r.components[id]? with
  | none => simp
  | some c => simp

/-- No two components share a name. -/
theorem eq_of_name_eq {i j : Nat} {c d : Component I} (hc : r.components[i]? = some c)
    (hd : r.components[j]? = some d) (h : c.name = d.name) : i = j := by
  have hi : r.idOf? c.name = some i := idOf?_eq_some.2 ⟨c, hc, rfl⟩
  have hj : r.idOf? c.name = some j := idOf?_eq_some.2 ⟨d, hd, h.symm⟩
  exact Option.some.inj (hi.symm.trans hj)

theorem nameAt_eq {id : Nat} {c : Component I} (h : r.components[id]? = some c) :
    r.nameAt id = c.name := by
  rw [nameAt, h]
  rfl

theorem nameAt_injOn {i j : Nat} (hi : i < r.size) (hj : j < r.size)
    (h : r.nameAt i = r.nameAt j) : i = j := by
  have hc := List.getElem?_eq_getElem hi
  have hd := List.getElem?_eq_getElem hj
  rw [nameAt_eq hc, nameAt_eq hd] at h
  exact eq_of_name_eq hc hd h

/-! ## Circles -/

theorem uses_of_dependsOn {i j : Nat} (hj : j < r.size) (h : r.graph.DependsOn i j) :
    r.Uses (r.nameAt i) (r.nameAt j) := by
  obtain ⟨c, hc, hmem⟩ := dependsOn_iff.1 h
  have hd := List.getElem?_eq_getElem hj
  exact ⟨c, List.mem_of_getElem? hc, (nameAt_eq hc).symm, j, hmem, _, hd, (nameAt_eq hd).symm⟩

/-- There is a circle to report if and only if the walk fails. -/
theorem findCycle_eq_some {names : List String} :
    r.findCycle = some names ↔
      ∃ circle, r.graph.depthFirst = .error circle ∧ r.namesOf circle = names := by
  rw [findCycle]
  cases r.graph.depthFirst with
  | ok order => simp
  | error circle => simp

theorem findCycle_eq_none : r.findCycle = none ↔ r.graph.Acyclic := by
  rw [← Graph.depthFirst_isOk_iff, findCycle]
  cases r.graph.depthFirst with
  | ok order => simp
  | error circle => simp

/-- **`findCycle` decides whether components use each other in a circle.** It names none exactly if
there is none, and what it names is one: a closed way along dependencies of at least one step, which
meets no component twice but the first one, at its end. -/
theorem findCycle_sound_complete (r : Registry I) :
    (r.findCycle = none ↔ r.graph.Acyclic) ∧
      ∀ names, r.findCycle = some names →
        2 ≤ names.length ∧ names.head? = names.getLast? ∧ names.dropLast.Nodup ∧
          names.IsChain r.Uses := by
  refine ⟨findCycle_eq_none, fun names hnames => ?_⟩
  obtain ⟨circle, hwalk, rfl⟩ := findCycle_eq_some.1 hnames
  have hcircle := Graph.depthFirst_error hwalk
  -- the places on the circle are those of components, so their names differ where they do
  have hlt : ∀ id ∈ circle, id < r.size := fun id hid => r.size_graph ▸ hcircle.lt_size hid
  refine ⟨?_, ?_, ?_, ?_⟩
  · rw [namesOf, List.length_map]
    exact hcircle.two_le
  · rw [namesOf, List.head?_map, List.getLast?_map, hcircle.closed]
  · rw [namesOf, ← List.map_dropLast]
    exact hcircle.nodup.map_on fun i hi j hj => nameAt_injOn
      (hlt i (List.dropLast_subset _ hi)) (hlt j (List.dropLast_subset _ hj))
  · rw [namesOf, List.isChain_map]
    exact hcircle.chain.imp_of_mem_imp fun i j _ hj => uses_of_dependsOn (hlt j hj)

/-! ## The order of a build -/

/-- An order lists all places, each behind what its component uses. -/
theorem postOrder_ok {order : List Nat} (h : r.postOrder = .ok order) :
    r.graph.Sorted order ∧ order.Nodup ∧ ∀ id, id ∈ order ↔ id < r.size := by
  rw [postOrder] at h
  split at h
  · next hwalk =>
    cases h
    exact r.size_graph ▸ Graph.depthFirst_ok hwalk
  · cases h

theorem postOrder_isOk_iff : (∃ order, r.postOrder = .ok order) ↔ r.graph.Acyclic := by
  rw [← Graph.depthFirst_isOk_iff, postOrder]
  cases r.graph.depthFirst with
  | ok order => simp
  | error circle => simp

/-- **`postOrder` lists every component once, behind those that it uses.** It succeeds exactly if no
components use each other in a circle, and otherwise fails with the circle that `findCycle`
names. -/
theorem postOrder_sound_complete (r : Registry I) :
    ((∃ order, r.postOrder = .ok order) ↔ r.graph.Acyclic) ∧
      (∀ order, r.postOrder = .ok order →
        order.Perm (List.range r.size) ∧
          ∀ id c, r.components[id]? = some c → ∀ d ∈ c.deps, d < r.size →
            order.idxOf d < order.idxOf id) ∧
      ∀ e, r.postOrder = .error e → ∃ names, r.findCycle = some names ∧ e = .cycle names := by
  refine ⟨postOrder_isOk_iff, fun order horder => ?_, fun e he => ?_⟩
  · obtain ⟨hsorted, hnodup, hall⟩ := postOrder_ok horder
    refine ⟨(List.perm_ext_iff_of_nodup hnodup List.nodup_range).2 fun id => ?_,
      fun id c hc d hd hlt => ?_⟩
    · rw [hall, List.mem_range]
    · have hid : id < r.size := (List.getElem?_eq_some_iff.1 hc).1
      exact hsorted.idxOf_lt hnodup ((hall id).2 hid) (dependsOn_iff.2 ⟨c, hc, hd⟩)
        (r.size_graph.symm ▸ hlt)
  · rw [postOrder] at he
    split at he
    · cases he
    · next circle hwalk =>
      cases he
      have hfound := findCycle_eq_some.2 ⟨circle, hwalk, rfl⟩
      exact ⟨_, hfound, by rw [hfound, Option.getD_some]⟩

end StaticSite.Registry
