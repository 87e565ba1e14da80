import Mathlib
import StaticSite.Proofs.Passes

/-!
# What the stage of a registry promises

Operations on a registry come in any order and may fail. `Promise` is what holds after all of them:
the stage tells how much of what the passes find out can be relied on. It is kept by each operation
(`Promise.apply`) and so by all sequences of them (`promise_after`).

Linking puts the stage back and leaves old style sheets and instances behind, about which the promise
then says nothing. Passes that are run again do not lower the stage, which is right because they
find nothing new.
-/

namespace StaticSite

open Text

namespace Stage

theorem le_trans {a b c : Stage} (h₁ : a ≤ b) (h₂ : b ≤ c) : a ≤ c := Nat.le_trans h₁ h₂

/-- The later of two stages is past a third one only if one of them is. -/
theorem le_of_le_later {a b c : Stage} (h : c ≤ a.later b) (hb : ¬ c ≤ b) : c ≤ a := by
  rw [later] at h
  split at h
  · exact absurd h hb
  · exact h

end Stage

namespace Registry

variable {I : Type} {make : Template.Spec I → Except RenderError I} {r r' : Registry I}

/-! ## The promise -/

/-- A component has the dependencies that its template names, each once. -/
def HasDeps (r : Registry I) (c : Component I) : Prop :=
  c.deps = r.resolveTags c.tags ∧ c.deps.Nodup

/-- A dictionary holds the instances of all components at some places, and nothing else. -/
structure Provides (r : Registry I) (ids : List Nat) (instances : Dict I) : Prop where
  /-- every component has an instance there -/
  present : ∀ id ∈ ids, ∃ c i, r.components[id]? = some c ∧ c.built? = some i ∧
    Dict.get? c.name instances = some i
  /-- every instance there is the one that a component has -/
  only : ∀ name i, Dict.get? name instances = some i →
    ∃ id ∈ ids, ∃ c, r.components[id]? = some c ∧ c.name = name ∧ c.built? = some i

/-- What holds of a registry that has come to a stage. -/
structure Promise (make : Template.Spec I → Except RenderError I) (r : Registry I) : Prop where
  /-- no two components share a name -/
  nodup_names : (r.components.map (·.name)).Nodup
  /-- the index leads from a name to the component that has it, and from no other name anywhere -/
  found : ∀ name id, Dict.get? name r.index = some id ↔
    ∃ c, r.components[id]? = some c ∧ c.name = name
  /-- linked: the dependencies are those that the templates name -/
  linked : .linked ≤ r.stage → ∀ c ∈ r.components, r.HasDeps c
  /-- checked: no component depends on itself, be it through others -/
  acyclic : .checked ≤ r.stage → r.graph.Acyclic
  /-- styled: style sheets are a component's own and those of its dependencies, each once -/
  styled : .styled ≤ r.stage → ∀ c ∈ r.components, c.styles =
    (c.exports.styles ++
      c.deps.flatMap fun id => (r.components[id]?.map (·.styles)).getD []).eraseDups
  /-- materialized: every component has the instance that is made of its template, its exports and
  the instances of all its dependencies -/
  built : .materialized ≤ r.stage → ∀ c ∈ r.components,
    r.Provides c.deps (r.instancesOf c.deps) ∧
      ∃ i, c.built? = some i ∧
        make ⟨c.name, c.blocks.template, c.exports, r.instancesOf c.deps⟩ = .ok i

theorem nodup_names (r : Registry I) : (r.components.map (·.name)).Nodup := by
  rw [List.nodup_iff_getElem?_ne_getElem?]
  intro i j hij hj heq
  have hname := List.getElem?_eq_getElem hj
  have hi := (r.indexed _ i).2 (heq.trans hname)
  have hj := (r.indexed _ j).2 hname
  exact hij.ne (Option.some.inj (hi.symm.trans hj))

/-! ## What the passes find out -/

theorem nodup_resolveTags {tags : List String} (h : tags.Nodup) : (r.resolveTags tags).Nodup := by
  refine h.filterMap fun tag tag' id hid hid' => ?_
  obtain ⟨c, hc, rfl⟩ := idOf?_eq_some.1 hid
  obtain ⟨c', hc', rfl⟩ := idOf?_eq_some.1 hid'
  rw [Option.some.inj (hc.symm.trans hc')]

theorem hasDeps_link (r : Registry I) : ∀ c ∈ r.link.components, r.link.HasDeps c := by
  intro c hc
  obtain ⟨c, -, rfl⟩ := List.mem_map.1 hc
  exact ⟨rfl, nodup_resolveTags (nodup_distinct _)⟩

/-- Dependencies are places of components. -/
theorem HasDeps.exists_component {c : Component I} (h : r.HasDeps c) {d : Nat} (hd : d ∈ c.deps) :
    ∃ c', r.components[d]? = some c' := by
  rw [h.1, resolveTags, List.mem_filterMap] at hd
  obtain ⟨tag, -, hid⟩ := hd
  obtain ⟨c', hc', -⟩ := idOf?_eq_some.1 hid
  exact ⟨c', hc'⟩

theorem SameBut.hasDeps {strip : Component I → Component I} (h : SameBut strip r r')
    (hdeps : ∀ c, (strip c).deps = c.deps) (hblocks : ∀ c, (strip c).blocks = c.blocks)
    (hall : ∀ c ∈ r.components, r.HasDeps c) : ∀ c ∈ r'.components, r'.HasDeps c := by
  intro c' hc'
  obtain ⟨c, hc, heq⟩ := h.exists_mem (fun c => (c.deps, c.blocks))
    (fun c => by rw [hdeps, hblocks]) hc'
  rw [Prod.mk.injEq] at heq
  have hone := hall c hc
  rw [HasDeps, Component.tags, heq.1, heq.2] at hone
  have hfind : r'.idOf? = r.idOf? := funext fun name => congrArg (Dict.get? name) h.index_eq
  rw [HasDeps, resolveTags, hfind]
  exact hone

theorem SameBut.hasStyles (h : SameBut bare r r') (hall : ∀ c ∈ r.components, HasStyles r c) :
    ∀ c ∈ r'.components, HasStyles r' c := by
  intro c' hc'
  obtain ⟨c, hc, heq⟩ := h.exists_mem (fun c => (c.styles, c.exports, c.deps))
    (fun _ => rfl) hc'
  obtain ⟨hstyles, hexports, hdeps⟩ : c.styles = c'.styles ∧ c.exports = c'.exports ∧
    c.deps = c'.deps := by simpa using heq
  have hmap := h.map_eq (·.styles) fun _ => rfl
  have hlook : ∀ id : Nat, r'.components[id]?.map (·.styles) = r.components[id]?.map (·.styles) := by
    intro id
    rw [← List.getElem?_map, ← List.getElem?_map, hmap]
  have hone := hall c hc
  rw [HasStyles, stylesOf, hstyles, hexports, hdeps] at hone
  rw [HasStyles, stylesOf, hone]
  simp only [hlook]

/-- When every component has an instance, one is made of the instances of all its dependencies. -/
theorem provides_instancesOf {c : Component I} (h : r.HasDeps c)
    (hall : ∀ c ∈ r.components, HasInstance make r c) :
    r.Provides c.deps (r.instancesOf c.deps) := by
  refine ⟨fun id hid => ?_, fun name i => get?_instancesOf.1⟩
  obtain ⟨d, hd⟩ := h.exists_component hid
  obtain ⟨i, hi, -⟩ := hall d (List.mem_of_getElem? hd)
  exact ⟨d, i, hd, hi, get?_instancesOf.2 ⟨id, hid, d, hd, rfl, hi⟩⟩

/-! ## The promise is kept -/

/-- A registry keeps the promise if its components have what its stage says. -/
theorem Promise.intro (linked : .linked ≤ r.stage → ∀ c ∈ r.components, r.HasDeps c)
    (acyclic : .checked ≤ r.stage → r.graph.Acyclic)
    (styled : .styled ≤ r.stage → ∀ c ∈ r.components, HasStyles r c)
    (built : .materialized ≤ r.stage → ∀ c ∈ r.components, HasInstance make r c) :
    Promise make r where
  nodup_names := r.nodup_names
  found _ _ := idOf?_eq_some
  linked := linked
  acyclic := acyclic
  styled hs c hc := by
    rw [← distinct_eq_eraseDups]
    exact styled hs c hc
  built hs c hc :=
    have hdeps := linked (Stage.le_trans (by decide) hs) c hc
    ⟨provides_instancesOf hdeps (built hs), built hs c hc⟩

theorem Promise.hasStyles (h : Promise make r) (hs : .styled ≤ r.stage) :
    ∀ c ∈ r.components, HasStyles r c := by
  intro c hc
  rw [HasStyles, stylesOf, distinct_eq_eraseDups]
  exact h.styled hs c hc

theorem Promise.hasInstance (h : Promise make r) (hs : .materialized ≤ r.stage) :
    ∀ c ∈ r.components, HasInstance make r c :=
  fun c hc => (h.built hs c hc).2

/-- Up to linking nothing is promised but names and dependencies. -/
theorem Promise.of_le_linked (hs : r.stage ≤ .linked)
    (linked : .linked ≤ r.stage → ∀ c ∈ r.components, r.HasDeps c) : Promise make r :=
  .intro linked (fun h => absurd (Stage.le_trans h hs) (by decide))
    (fun h => absurd (Stage.le_trans h hs) (by decide))
    (fun h => absurd (Stage.le_trans h hs) (by decide))

theorem Promise.of_loaded (h : r.stage = .loaded) : Promise make r := by
  refine .of_le_linked (by rw [h]; decide) fun hs => ?_
  rw [h] at hs
  exact absurd hs (by decide)

theorem promise_insert {c : Component I} (h : r.insert c = .ok r') : Promise make r' := by
  rw [insert] at h
  split at h
  · cases h
  · cases h
    exact .of_loaded rfl

theorem promise_link (r : Registry I) : Promise make r.link :=
  .of_le_linked (Nat.le_refl _) fun _ => r.hasDeps_link

theorem require_eq_ok {s : Stage} (h : r.require s = .ok ()) : s ≤ r.stage := by
  rw [require] at h
  split at h
  · assumption
  · cases h

theorem require_of_le {s : Stage} (h : s ≤ r.stage) : r.require s = .ok () := if_pos h

/-- What a successful check has made sure of. Nothing but the stage changes. -/
theorem checkCycles_eq_ok (h : r.checkCycles = .ok r') :
    .linked ≤ r.stage ∧ r.graph.Acyclic ∧ r' = { r with stage := r.stage.later .checked } := by
  rw [checkCycles] at h
  rcases hreq : r.require .linked with e | _
  · rw [hreq] at h
    cases h
  · rw [hreq] at h
    rcases hfind : r.findCycle with _ | names
    · rw [hfind] at h
      cases h
      exact ⟨require_eq_ok hreq, findCycle_eq_none.1 hfind, rfl⟩
    · rw [hfind] at h
      cases h

theorem Promise.checkCycles (h : Promise make r) (hok : r.checkCycles = .ok r') :
    Promise make r' := by
  obtain ⟨hlinked, hacyclic, rfl⟩ := checkCycles_eq_ok hok
  -- what the new stage promises beyond the check, the old one did already
  refine .intro (fun _ => h.linked hlinked) (fun _ => hacyclic) (fun hs => ?_) (fun hs => ?_)
  · exact h.hasStyles (Stage.le_of_le_later hs (by decide))
  · exact h.hasInstance (Stage.le_of_le_later hs (by decide))

theorem aggregateStyles_eq_ok (h : r.aggregateStyles = .ok r') :
    .checked ≤ r.stage ∧ ∃ order, r.postOrder = .ok order ∧
      r' = { order.foldl styleOne r with stage := r.stage.later .styled } := by
  rw [aggregateStyles] at h
  rcases hreq : r.require .checked with e | _
  · rw [hreq] at h
    cases h
  · rw [hreq] at h
    rcases horder : r.postOrder with e | order
    · rw [horder] at h
      cases h
    · rw [horder] at h
      cases h
      refine ⟨require_eq_ok hreq, order, rfl, ?_⟩
      rw [(sameBut_foldl_styleOne order r).stage_eq]

theorem Promise.aggregateStyles (h : Promise make r) (hok : r.aggregateStyles = .ok r') :
    Promise make r' := by
  obtain ⟨hchecked, order, horder, rfl⟩ := aggregateStyles_eq_ok hok
  obtain ⟨hsorted, hnodup, hall⟩ := postOrder_ok horder
  have hsame := sameBut_foldl_styleOne order r
  refine .intro (fun _ => ?_) (fun _ => ?_) (fun _ => ?_) (fun hs => ?_)
  · exact hsame.hasDeps (fun _ => rfl) (fun _ => rfl)
      (h.linked (Stage.le_trans (by decide) hchecked))
  · exact hsame.graph_eq (fun _ => rfl) ▸ h.acyclic hchecked
  · refine (hasStyles_foldl_styleOne hsorted hnodup).all fun id hid => (hall id).2 ?_
    rwa [← hsame.size_eq]
  · -- past this stage all style sheets are there, and the pass finds the same again
    have hs := Stage.le_of_le_later hs (by decide)
    have hself := foldl_styleOne_eq_self order
      (h.hasStyles (Stage.le_trans (by decide) hs))
    have hbuilt := h.hasInstance hs
    rw [← hself] at hbuilt
    exact hbuilt

/-- What `materialize` can do: refuse, fail half-way, or make all instances. -/
theorem materialize_cases (make : Template.Spec I → Except RenderError I) (r : Registry I) :
    (∃ e, r.materialize make = (r, .error e) ∧ (.styled ≤ r.stage → ¬ r.graph.Acyclic)) ∨
    ∃ order r₁, .styled ≤ r.stage ∧ r.postOrder = .ok order ∧
      ((∃ e, materializeAll make r order = (r₁, .error e) ∧
          r.materialize make = (r₁, .error e)) ∨
        (materializeAll make r order = (r₁, .ok ()) ∧
          r.materialize make = ({ r₁ with stage := .materialized }, .ok ()))) := by
  rw [materialize]
  rcases hreq : r.require .styled with e | _
  · refine .inl ⟨e, rfl, fun hs => ?_⟩
    rw [require_of_le hs] at hreq
    cases hreq
  · rcases horder : r.postOrder with e | order
    · refine .inl ⟨e, rfl, fun _ hacyclic => ?_⟩
      obtain ⟨order, hok⟩ := postOrder_isOk_iff.2 hacyclic
      rw [hok] at horder
      cases horder
    · refine .inr ⟨order, (materializeAll make r order).1, require_eq_ok hreq, rfl, ?_⟩
      rcases hall : materializeAll make r order with ⟨r₁, e | _⟩
      · exact .inl ⟨e, rfl, by simp only [hall]⟩
      · exact .inr ⟨rfl, by simp only [hall]⟩

theorem Promise.materialize (h : Promise make r) : Promise make (r.materialize make).1 := by
  obtain ⟨e, heq, -⟩ | ⟨order, r₁, hstyled, horder, hcase⟩ := materialize_cases make r
  · rw [heq]
    exact h
  have hlinked := h.linked (Stage.le_trans (by decide) hstyled)
  have hacyclic := h.acyclic (Stage.le_trans (by decide) hstyled)
  have hsame := sameBut_materializeAll make order r
  obtain ⟨e, hall, heq⟩ | ⟨hall, heq⟩ := hcase
  · rw [hall] at hsame
    rw [heq]
    refine .intro (fun _ => hsame.hasDeps (fun _ => rfl) (fun _ => rfl) hlinked)
      (fun _ => hsame.graph_eq (fun _ => rfl) ▸ hacyclic)
      (fun _ => hsame.hasStyles (h.hasStyles hstyled)) fun hs => ?_
    -- with all instances there, the pass makes the same again and does not fail
    rw [hsame.stage_eq] at hs
    rw [materializeAll_eq_self order (h.hasInstance hs)] at hall
    cases hall
  · obtain ⟨hsorted, hnodup, hmem⟩ := postOrder_ok horder
    have hok : (materializeAll make r order).2 = .ok () := by rw [hall]
    have hmade := hasInstance_materializeAll hsorted hnodup (fun id hid => (hmem id).1 hid) hok
    rw [hall] at hsame hmade
    rw [heq]
    refine .intro (fun _ => hsame.hasDeps (fun _ => rfl) (fun _ => rfl) hlinked)
      (fun _ => hsame.graph_eq (fun _ => rfl) ▸ hacyclic)
      (fun _ => hsame.hasStyles (h.hasStyles hstyled)) fun _ => ?_
    refine hmade.all fun id hid => (hmem id).2 ?_
    rwa [← hsame.size_eq]

/-- All that `prepare` does is done by its passes. -/
theorem promise_prepare (r : Registry I) : Promise make (r.prepare make).1 := by
  have hlink : Promise make r.link := promise_link r
  rw [prepare]
  rcases hchecked : r.link.checkCycles with e | checked
  · exact hlink
  · dsimp only
    have hcheck := hlink.checkCycles hchecked
    rcases hstyled : checked.aggregateStyles with e | styled
    · exact hcheck
    · exact (hcheck.aggregateStyles hstyled).materialize

/-! ## Failures -/

theorem checkCycles_eq_error {e : BuildError} (h : r.checkCycles = .error e)
    (hs : .linked ≤ r.stage) : ∃ names, e = .cycle names := by
  rw [checkCycles, require_of_le hs] at h
  rcases hfind : r.findCycle with _ | names
  · rw [hfind] at h
    cases h
  · rw [hfind] at h
    cases h
    exact ⟨names, rfl⟩

theorem aggregateStyles_isOk (hs : .checked ≤ r.stage) (hacyclic : r.graph.Acyclic) :
    ∃ r', r.aggregateStyles = .ok r' := by
  obtain ⟨order, horder⟩ := postOrder_isOk_iff.2 hacyclic
  rw [aggregateStyles, require_of_le hs, horder]
  exact ⟨_, rfl⟩

theorem stage_materialize_error {e : BuildError} (h : (r.materialize make).2 = .error e) :
    (r.materialize make).1.stage = r.stage := by
  obtain ⟨e, heq, -⟩ | ⟨order, r₁, -, -, ⟨e, hall, heq⟩ | ⟨-, heq⟩⟩ := materialize_cases make r
  · rw [heq]
  · have hsame := sameBut_materializeAll make order r
    rw [hall] at hsame
    rw [heq]
    exact hsame.stage_eq
  · rw [heq] at h
    cases h

theorem materialize_eq_error {e : BuildError} (h : (r.materialize make).2 = .error e)
    (hs : .styled ≤ r.stage) (hacyclic : r.graph.Acyclic) :
    ∃ path cause, e = .render path cause := by
  obtain ⟨e, -, hnot⟩ | ⟨order, r₁, -, -, ⟨e, hall, heq⟩ | ⟨-, heq⟩⟩ := materialize_cases make r
  · exact absurd hacyclic (hnot hs)
  · rw [heq] at h
    cases h
    exact materializeAll_error (by rw [hall])
  · rw [heq] at h
    cases h

/-- Where `prepare` stops: at a circle behind linking, or at an instance behind style sheets. -/
theorem prepare_eq_error {e : BuildError} (h : (r.prepare make).2 = .error e) :
    ((∃ names, e = .cycle names) ∧ (r.prepare make).1.stage = .linked) ∨
      (∃ path cause, e = .render path cause) ∧ (r.prepare make).1.stage = .styled := by
  rw [prepare] at h ⊢
  rcases hchecked : r.link.checkCycles with e' | checked
  · rw [hchecked] at h
    cases h
    exact .inl ⟨checkCycles_eq_error hchecked (Nat.le_refl _), rfl⟩
  · rw [hchecked] at h
    dsimp only at h ⊢
    obtain ⟨-, hacyclic, rfl⟩ := checkCycles_eq_ok hchecked
    -- behind the check there is an order, so style sheets cannot fail
    rcases hstyled : aggregateStyles { r.link with stage := r.link.stage.later .checked } with
      e' | styled
    · obtain ⟨styled, hok⟩ := aggregateStyles_isOk
        (r := { r.link with stage := r.link.stage.later .checked }) (Nat.le_refl _) hacyclic
      rw [hok] at hstyled
      cases hstyled
    · rw [hstyled] at h
      dsimp only at h ⊢
      obtain ⟨-, order, -, rfl⟩ := aggregateStyles_eq_ok hstyled
      have hsame := sameBut_foldl_styleOne order
        { r.link with stage := r.link.stage.later .checked }
      refine .inr ⟨materialize_eq_error h (Nat.le_refl _) ?_, stage_materialize_error h⟩
      exact hsame.graph_eq (fun _ => rfl) ▸ hacyclic

/-! ## Operations in any order -/

/-- An operation on a registry. -/
inductive Op (I : Type) where
  /-- enter a component -/
  | insert (c : Component I)
  /-- find out which components each template uses -/
  | link
  /-- make sure that no component uses itself -/
  | checkCycles
  /-- gather style sheets -/
  | aggregateStyles
  /-- make instances -/
  | materialize
  /-- all passes in order -/
  | prepare

/-- A registry that stays as it is on a failure. -/
def settle (r : Registry I) : Except BuildError (Registry I) → Registry I × Except BuildError Unit
  | .ok r' => (r', .ok ())
  | .error e => (r, .error e)

/-- What an operation leaves of a registry, and whether it succeeded. -/
def Op.apply (make : Template.Spec I → Except RenderError I) (r : Registry I) :
    Op I → Registry I × Except BuildError Unit
  | .insert c => settle r (r.insert c)
  | .link => (r.link, .ok ())
  | .checkCycles => settle r r.checkCycles
  | .aggregateStyles => settle r r.aggregateStyles
  | .materialize => r.materialize make
  | .prepare => r.prepare make

/-- The registry after operations on the empty one, those that fail among them. -/
def after (make : Template.Spec I → Except RenderError I) (ops : List (Op I)) : Registry I :=
  ops.foldl (fun r op => (op.apply make r).1) {}

theorem Promise.settle {res : Except BuildError (Registry I)} (h : Promise make r)
    (hok : ∀ r', res = .ok r' → Promise make r') : Promise make (r.settle res).1 := by
  cases res with
  | ok r' => exact hok r' rfl
  | error e => exact h

/-- **One operation keeps the promise.** -/
theorem Promise.apply (h : Promise make r) (op : Op I) : Promise make (op.apply make r).1 := by
  cases op with
  | insert c => exact h.settle fun _ => promise_insert
  | link => exact promise_link r
  | checkCycles => exact h.settle fun _ => h.checkCycles
  | aggregateStyles => exact h.settle fun _ => h.aggregateStyles
  | materialize => exact h.materialize
  | prepare => exact promise_prepare r

theorem promise_after (ops : List (Op I)) : Promise make (after make ops) := by
  induction ops using List.reverseRecOn with
  | nil => exact .of_loaded rfl
  | append_singleton ops op ih =>
    rw [after, List.foldl_append]
    exact ih.apply op

theorem settle_error {res : Except BuildError (Registry I)} {e : BuildError}
    (h : (r.settle res).2 = .error e) : (r.settle res).1 = r := by
  cases res with
  | ok r' => cases h
  | error e => rfl

/-- A failing operation that is one pass only leaves the stage as it was. -/
theorem stage_apply_error {op : Op I} {e : BuildError} (h : (op.apply make r).2 = .error e)
    (hop : op ≠ .prepare) : (op.apply make r).1.stage = r.stage := by
  cases op with
  | insert c => exact congrArg stage (settle_error h)
  | link => cases h
  | checkCycles => exact congrArg stage (settle_error h)
  | aggregateStyles => exact congrArg stage (settle_error h)
  | materialize => exact stage_materialize_error h
  | prepare => exact absurd rfl hop

/-- **Every sequence of operations keeps the promise of the stage.** An operation that fails behind
it does not move the stage, and a component that is refused changes nothing. Only `prepare`, which is
all passes, keeps what the passes before the failing one have reached: it has linked when it finds a
circle, and gathered style sheets when an instance cannot be made. -/
theorem stage_promise (make : Template.Spec I → Except RenderError I) (ops : List (Op I)) :
    Promise make (after make ops) ∧
      ∀ (op : Op I) (e : BuildError), (op.apply make (after make ops)).2 = .error e →
        (∀ c, op = .insert c → (op.apply make (after make ops)).1 = after make ops) ∧
        (op ≠ .prepare → (op.apply make (after make ops)).1.stage = (after make ops).stage) ∧
        (op = .prepare →
          ((∃ names, e = .cycle names) ∧
            (op.apply make (after make ops)).1.stage = .linked) ∨
          (∃ path cause, e = .render path cause) ∧
            (op.apply make (after make ops)).1.stage = .styled) := by
  refine ⟨promise_after ops, fun op e he => ⟨?_, stage_apply_error he, ?_⟩⟩
  · rintro c rfl
    exact settle_error he
  · rintro rfl
    exact prepare_eq_error he

/-- A component `X` that uses itself. -/
def selfUser : Component Instance where
  name := "X"
  path := ⟨"X.vue"⟩
  blocks := ⟨"<X/>", "", []⟩
  exports := {}

/-- Not every failing operation leaves the stage: `prepare` has linked `X` when it finds the
circle. -/
theorem prepare_error_raises_stage :
    ¬ ∀ (make : Template.Spec Instance → Except RenderError Instance) (ops : List (Op Instance))
        (op : Op Instance) (e : BuildError), (op.apply make (after make ops)).2 = .error e →
        (op.apply make (after make ops)).1.stage ≤ (after make ops).stage := by
  intro h
  have hbefore : (after Template.instantiate [.insert selfUser]).stage = .loaded := by cbv
  have hfails : (Op.prepare.apply Template.instantiate
      (after Template.instantiate [.insert selfUser])).2 = .error (.cycle ["X", "X"]) := by cbv
  have hbehind : (Op.prepare.apply Template.instantiate
      (after Template.instantiate [.insert selfUser])).1.stage = .linked := by cbv
  have hle := h Template.instantiate [.insert selfUser] .prepare _ hfails
  rw [hbefore, hbehind] at hle
  exact absurd hle (by decide)

end Registry

end StaticSite
