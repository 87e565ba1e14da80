import StaticSite.Proofs.BuildOrder

/-!
# The passes in build order

`aggregateStyles` and `materialize` go through the components in build order and give each of them
something made of its own sources and of what its dependencies have by then. What a component then
has is right, and it stays right: the components that come later are not among those that it depends
on. This is one argument for both passes, `HoldsAt.concat`.

A pass over components that have what they should have changes nothing (`foldl_styleOne_eq_self`,
`materializeAll_eq_self`), so a registry that has come further loses nothing by it.
-/

namespace StaticSite

/-- A dictionary has the entries that it is made of, if they do not contradict each other. -/
theorem Dict.get?_ofList {α : Type} {entries : List (String × α)} {name : String} {v : α}
    (hone : ∀ w w', (name, w) ∈ entries → (name, w') ∈ entries → w = w') :
    Dict.get? name (Dict.ofList entries) = some v ↔ (name, v) ∈ entries := by
  induction entries using List.reverseRecOn with
  | nil => simp [ofList, insertAll, get?]
  | append_singleton entries entry ih =>
    obtain ⟨n, u⟩ := entry
    have hconcat : ofList (entries ++ [(n, u)]) = insert n u (ofList entries) := by
      simp only [ofList, insertAll, List.foldl_append, List.foldl_cons, List.foldl_nil]
    rw [hconcat, get?_insert]
    split
    · next heq =>
      subst heq
      rw [Option.some.injEq]
      constructor
      · rintro rfl
        simp
      · exact fun hmem => hone u v (by simp) hmem
    · next hne =>
      rw [ih fun w w' hw hw' => hone w w' (by simp [hw]) (by simp [hw'])]
      simp [hne]

namespace Registry

open Text

variable {I : Type} {r r' : Registry I}

/-! ## What a pass leaves alone -/

/-- Two registries agree in all but what is taken away from each component. -/
structure SameBut (strip : Component I → Component I) (r r' : Registry I) : Prop where
  /-- the same index of names -/
  index_eq : r'.index = r.index
  /-- the same stage -/
  stage_eq : r'.stage = r.stage
  /-- the same components, but for what is taken away -/
  map_strip : r'.components.map strip = r.components.map strip

namespace SameBut

variable {strip : Component I → Component I}

theorem refl (strip : Component I → Component I) (r : Registry I) : SameBut strip r r :=
  ⟨rfl, rfl, rfl⟩

theorem trans {r₁ r₂ r₃ : Registry I} (h₁ : SameBut strip r₁ r₂) (h₂ : SameBut strip r₂ r₃) :
    SameBut strip r₁ r₃ :=
  ⟨h₂.index_eq.trans h₁.index_eq, h₂.stage_eq.trans h₁.stage_eq, h₂.map_strip.trans h₁.map_strip⟩

theorem modify {id : Nat} {f : Component I → Component I} {hf : ∀ c, (f c).name = c.name}
    (hstrip : ∀ c, strip (f c) = strip c) : SameBut strip r (r.modify id f hf) :=
  ⟨rfl, rfl, map_modify hstrip⟩

/-- The registries agree in every view that does not see what is taken away. -/
theorem map_eq (h : SameBut strip r r') {α : Type} (view : Component I → α)
    (hview : ∀ c, view (strip c) = view c) : r'.components.map view = r.components.map view := by
  have hsplit : view = view ∘ strip := funext fun c => (hview c).symm
  rw [hsplit, ← List.map_map, ← List.map_map, h.map_strip]

theorem exists_mem (h : SameBut strip r r') {α : Type} (view : Component I → α)
    (hview : ∀ c, view (strip c) = view c) {c' : Component I} (hc' : c' ∈ r'.components) :
    ∃ c ∈ r.components, view c = view c' := by
  have hmem := List.mem_map_of_mem (f := view) hc'
  rw [h.map_eq view hview] at hmem
  exact List.mem_map.1 hmem

theorem graph_eq (h : SameBut strip r r') (hdeps : ∀ c, (strip c).deps = c.deps) :
    r'.graph = r.graph :=
  congrArg Graph.mk (h.map_eq (·.deps) hdeps)

theorem size_eq (h : SameBut strip r r') : r'.size = r.size := by
  have hlen := congrArg List.length h.map_strip
  rwa [List.length_map, List.length_map] at hlen

end SameBut

@[simp] theorem getElem?_modify {id i : Nat} {f : Component I → Component I}
    {hf : ∀ c, (f c).name = c.name} :
    (r.modify id f hf).components[i]? =
      if id = i then r.components[i]?.map f else r.components[i]? := by
  by_cases hi : id = i <;> simp [modify, withComponents, hi]

/-- A change that changes nothing of its component changes nothing. -/
theorem modify_eq_self {id : Nat} {f : Component I → Component I} {hf : ∀ c, (f c).name = c.name}
    (h : ∀ c, r.components[id]? = some c → f c = c) : r.modify id f hf = r := by
  have hsame : r.components.modify id f = r.components := by
    apply List.ext_getElem?
    intro i
    rw [List.getElem?_modify]
    by_cases hi : id = i
    · subst hi
      cases hc : r.components[id]? with
      | none => rfl
      | some c => simp [h c hc]
    · simp [hi]
  simp only [modify, withComponents, hsame]

/-! ## One change in build order -/

/-- A property of components that looks at no others than those they depend on. -/
def IsLocal (P : Registry I → Component I → Prop) : Prop :=
  ∀ (r r' : Registry I) (c : Component I),
    (∀ d ∈ c.deps, r'.components[d]? = r.components[d]?) → P r c → P r' c

/-- The components at some places have a property. -/
def HoldsAt (P : Registry I → Component I → Prop) (r : Registry I) (ids : List Nat) : Prop :=
  ∀ id ∈ ids, ∀ c, r.components[id]? = some c → P r c

theorem HoldsAt.all {P : Registry I → Component I → Prop} {ids : List Nat} (h : HoldsAt P r ids)
    (hall : ∀ id, id < r.size → id ∈ ids) : ∀ c ∈ r.components, P r c := by
  intro c hc
  obtain ⟨id, hlt, hget⟩ := List.getElem_of_mem hc
  exact h id (hall id hlt) c (List.getElem?_eq_some_iff.2 ⟨hlt, hget⟩)

/-- **One more component.** When all that the component at a place depends on stands before it, giving
it a property takes it away from none of those before. -/
theorem HoldsAt.concat {P : Registry I → Component I → Prop} (hP : IsLocal P) {order : List Nat}
    {v : Nat} {f : Component I → Component I} {hf : ∀ c, (f c).name = c.name}
    (hsorted : r.graph.Sorted order) (hmet : ∀ d ∈ r.graph.next v, d < r.size → d ∈ order)
    (hv : v ∉ order) (hdeps : ∀ c, (f c).deps = c.deps) (h : HoldsAt P r order)
    (hnew : ∀ c, r.components[v]? = some c → P r (f c)) :
    HoldsAt P (r.modify v f hf) (order ++ [v]) := by
  -- dependencies of those at hand stand in the order, where `v` does not
  have hkept : ∀ d, (d < r.size → d ∈ order) →
      (r.modify v f hf).components[d]? = r.components[d]? := by
    intro d hd
    rw [getElem?_modify]
    split
    · next heq =>
      subst heq
      have hge : r.size ≤ v := Nat.le_of_not_lt fun hlt => hv (hd hlt)
      rw [List.getElem?_eq_none hge, Option.map_none]
    · rfl
  intro id hid c' hc'
  rw [getElem?_modify] at hc'
  rcases List.mem_append.1 hid with hid | hid
  · have hne : v ≠ id := fun heq => hv (heq ▸ hid)
    rw [if_neg hne] at hc'
    refine hP r _ c' (fun d hd => hkept d fun hlt => ?_) (h id hid c' hc')
    exact hsorted.mem_of_dependsOn hid (dependsOn_iff.2 ⟨c', hc', hd⟩) (r.size_graph.symm ▸ hlt)
  · obtain rfl := List.mem_singleton.1 hid
    rw [if_pos rfl, Option.map_eq_some_iff] at hc'
    obtain ⟨c, hc, rfl⟩ := hc'
    refine hP r _ (f c) (fun d hd => hkept d fun hlt => ?_) (hnew c hc)
    rw [hdeps] at hd
    exact hmet d (dependsOn_iff.2 ⟨c, hc, hd⟩) hlt

/-! ## Style sheets -/

/-- A component without its gathered style sheets. -/
def unstyled (c : Component I) : Component I := { c with styles := [] }

/-- A component has the style sheets that it should have. -/
def HasStyles (r : Registry I) (c : Component I) : Prop := c.styles = r.stylesOf c

theorem isLocal_hasStyles : IsLocal (HasStyles (I := I)) := by
  intro r r' c hdeps h
  rw [HasStyles, h, stylesOf, stylesOf]
  congr 2
  exact List.flatMap_congr fun d hd => by rw [hdeps d hd]

theorem sameBut_styleOne (r : Registry I) (id : Nat) : SameBut unstyled r (r.styleOne id) :=
  .modify fun _ => rfl

theorem sameBut_foldl_styleOne (order : List Nat) (r : Registry I) :
    SameBut unstyled r (order.foldl styleOne r) := by
  induction order generalizing r with
  | nil => exact .refl _ _
  | cons id order ih => exact (sameBut_styleOne r id).trans (ih _)

theorem hasStyles_foldl_styleOne {order : List Nat} (hsorted : r.graph.Sorted order)
    (hnodup : order.Nodup) : HoldsAt HasStyles (order.foldl styleOne r) order := by
  induction hsorted with
  | nil => exact fun _ hid => absurd hid List.not_mem_nil
  | @concat order v hbefore hmet ih =>
    rw [List.nodup_append] at hnodup
    obtain ⟨hnodup, -, hnew⟩ := hnodup
    -- `v` comes behind its dependencies, which have their style sheets by then
    have hsame := sameBut_foldl_styleOne order r
    have hgraph := hsame.graph_eq fun _ => rfl
    rw [List.foldl_append, List.foldl_cons, List.foldl_nil]
    refine (ih hnodup).concat isLocal_hasStyles (hgraph ▸ hbefore) ?_
      (fun hv => hnew v hv v (List.mem_singleton_self v) rfl) (fun _ => rfl) fun c _ => rfl
    rw [hgraph, hsame.size_eq, ← r.size_graph]
    exact hmet

theorem foldl_styleOne_eq_self (order : List Nat) (h : ∀ c ∈ r.components, HasStyles r c) :
    order.foldl styleOne r = r := by
  induction order with
  | nil => rfl
  | cons id order ih =>
    have hone : r.styleOne id = r := modify_eq_self fun c hc => by
      rw [← h c (List.mem_of_getElem? hc)]
    rw [List.foldl_cons, hone, ih]

/-! ## Instances -/

variable {make : Template.Spec I → Except RenderError I}

/-- A component without its instance. -/
def bare (c : Component I) : Component I := { c with built? := none }

/-- A component has the instance that is made of it now. -/
def HasInstance (make : Template.Spec I → Except RenderError I) (r : Registry I)
    (c : Component I) : Prop := ∃ i, c.built? = some i ∧ make (r.specOf c) = .ok i

/-- The instances at some places are found by the names of their components. -/
theorem get?_instancesOf {ids : List Nat} {name : String} {i : I} :
    Dict.get? name (r.instancesOf ids) = some i ↔
      ∃ id ∈ ids, ∃ c, r.components[id]? = some c ∧ c.name = name ∧ c.built? = some i := by
  have hmem : ∀ i, (name, i) ∈ (ids.filterMap fun id => do
      let c ← r.components[id]?
      let i ← c.built?
      return (c.name, i)) ↔
      ∃ id ∈ ids, ∃ c, r.components[id]? = some c ∧ c.name = name ∧ c.built? = some i := by
    intro i
    simp [List.mem_filterMap, Option.bind_eq_some_iff, and_comm]
  rw [instancesOf, Dict.get?_ofList, hmem]
  -- two entries under one name come from one component
  intro w w' hw hw'
  obtain ⟨id, -, c, hc, hname, hi⟩ := (hmem w).1 hw
  obtain ⟨id', -, c', hc', hname', hi'⟩ := (hmem w').1 hw'
  obtain rfl := eq_of_name_eq hc hc' (hname.trans hname'.symm)
  obtain rfl := Option.some.inj (hc.symm.trans hc')
  exact Option.some.inj (hi.symm.trans hi')

theorem isLocal_hasInstance : IsLocal (HasInstance make) := by
  rintro r r' c hdeps ⟨i, hi, hmake⟩
  refine ⟨i, hi, ?_⟩
  rw [← hmake, specOf, specOf, instancesOf, instancesOf]
  congr 3
  exact List.filterMap_congr fun d hd => by rw [hdeps d hd]

theorem materializeAll_append (make : Template.Spec I → Except RenderError I) (r : Registry I)
    (ids ids' : List Nat) :
    materializeAll make r (ids ++ ids') =
      match materializeAll make r ids with
      | (r', .ok _) => materializeAll make r' ids'
      | (r', .error e) => (r', .error e) := by
  induction ids generalizing r with
  | nil => rfl
  | cons id ids ih =>
    rw [List.cons_append, materializeAll, materializeAll]
    cases r.components[id]? with
    | none => exact ih r
    | some c =>
      dsimp only
      cases make (r.specOf c) with
      | error e => rfl
      | ok i => exact ih _

theorem sameBut_equip (r : Registry I) (id : Nat) (i : I) : SameBut bare r (r.equip id i) :=
  .modify fun _ => rfl

/-- Nothing but instances changes, also in a pass that fails. -/
theorem sameBut_materializeAll (make : Template.Spec I → Except RenderError I) (ids : List Nat)
    (r : Registry I) :
    SameBut bare r (materializeAll make r ids).1 := by
  induction ids generalizing r with
  | nil => exact .refl _ _
  | cons id ids ih =>
    rw [materializeAll]
    split
    · exact ih r
    · split
      · exact .refl _ _
      · exact (sameBut_equip r id _).trans (ih _)

/-- Only the making of an instance can fail. -/
theorem materializeAll_error {ids : List Nat} {e : BuildError}
    (h : (materializeAll make r ids).2 = .error e) : ∃ path cause, e = .render path cause := by
  induction ids generalizing r with
  | nil => cases h
  | cons id ids ih =>
    rw [materializeAll] at h
    split at h
    · exact ih h
    · split at h
      · cases h
        exact ⟨_, _, rfl⟩
      · exact ih h

/-- A pass that succeeds makes its last instance in the registry that the others have left. -/
theorem materializeAll_concat_ok {ids : List Nat} {v : Nat} (hv : v < r.size)
    (hok : (materializeAll make r (ids ++ [v])).2 = .ok ()) :
    ∃ r₁ c i, materializeAll make r ids = (r₁, .ok ()) ∧ r₁.components[v]? = some c ∧
      make (r₁.specOf c) = .ok i ∧ (materializeAll make r (ids ++ [v])).1 = r₁.equip v i := by
  have hsame := sameBut_materializeAll make ids r
  rw [materializeAll_append] at hok ⊢
  rcases hrun : materializeAll make r ids with ⟨r₁, e | _⟩
  · rw [hrun] at hok
    cases hok
  · rw [hrun] at hok hsame
    have hlt : v < r₁.size := hv.trans_eq hsame.size_eq.symm
    have hget : r₁.components[v]? = some r₁.components[v] := List.getElem?_eq_getElem hlt
    dsimp only at hok ⊢
    rw [materializeAll, hget] at hok ⊢
    dsimp only at hok ⊢
    rcases hmake : make (r₁.specOf _) with e | i
    · rw [hmake] at hok
      cases hok
    · exact ⟨r₁, _, i, rfl, hget, hmake, rfl⟩

theorem hasInstance_materializeAll {order : List Nat} (hsorted : r.graph.Sorted order)
    (hnodup : order.Nodup) (hlt : ∀ id ∈ order, id < r.size)
    (hok : (materializeAll make r order).2 = .ok ()) :
    HoldsAt (HasInstance make) (materializeAll make r order).1 order := by
  induction hsorted with
  | nil => exact fun _ hid => absurd hid List.not_mem_nil
  | @concat order v hbefore hmet ih =>
    rw [List.nodup_append] at hnodup
    obtain ⟨hnodup, -, hnew⟩ := hnodup
    -- the last instance is made where the others have left the registry
    obtain ⟨r₁, c, i, hrun, hget, hmake, heq⟩ :=
      materializeAll_concat_ok (hlt v (by simp)) hok
    have hsame := sameBut_materializeAll make order r
    have hih := ih hnodup (fun id hid => hlt id (by simp [hid])) (by rw [hrun])
    rw [hrun] at hsame hih
    have hgraph := hsame.graph_eq fun _ => rfl
    rw [heq]
    refine hih.concat isLocal_hasInstance (hgraph ▸ hbefore) ?_
      (fun hv => hnew v hv v (List.mem_singleton_self v) rfl) (fun _ => rfl) fun c' hc' => ?_
    · rw [hgraph, hsame.size_eq, ← r.size_graph]
      exact hmet
    · obtain rfl := Option.some.inj (hget.symm.trans hc')
      exact ⟨i, rfl, hmake⟩

theorem materializeAll_eq_self (ids : List Nat) (h : ∀ c ∈ r.components, HasInstance make r c) :
    materializeAll make r ids = (r, .ok ()) := by
  induction ids with
  | nil => rfl
  | cons id ids ih =>
    rw [materializeAll]
    split
    · exact ih
    · next c hc =>
      obtain ⟨i, hi, hmake⟩ := h c (List.mem_of_getElem? hc)
      rw [hmake]
      have hone : r.equip id i = r := modify_eq_self fun c' hc' => by
        obtain rfl := Option.some.inj (hc.symm.trans hc')
        rw [← hi]
      dsimp only
      rw [hone, ih]

end Registry

end StaticSite
