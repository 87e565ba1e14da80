import StaticSite.Proofs.Stages

/-!
# Instances made in one pass

`materialize` hands one component after the other to what makes the instances. Here that is a
*renderer*: it has a memory, and the same component may get an instance at one time and a failure at
another. A renderer that is recorded (`Renderer.recorded`) does the same and keeps a log of what it
was handed and what it answered, and the log tells what went on in a pass.

What a component is handed along with its template are the instances of the components that it
depends on, and all of them were made before it in the same pass (`Registry.Fits`). Instances that an
earlier pass has left behind never get in, although they stay in the registry until their component
has its turn. The invariant is `Registry.Progress`: components that had their turn have what the log
says, and all others are as they were.
-/

namespace StaticSite

/-- Makes instances, and has a memory that it may use and change each time. -/
abbrev Renderer (S I : Type) := Template.Spec I → S → Except RenderError I × S

namespace Renderer

variable {S I : Type}

/-- What a renderer was handed once, and what it answered. -/
structure Call (I : Type) where
  /-- what it was handed -/
  spec : Template.Spec I
  /-- what it answered -/
  answer : Except RenderError I

/-- The renderer, with a log of all calls in its memory. -/
def recorded (renderer : Renderer S I) : Renderer (S × List (Call I)) I := fun spec (s, calls) =>
  ((renderer spec s).1, (renderer spec s).2, calls ++ [⟨spec, (renderer spec s).1⟩])

/-- A function gives the answers of a log. -/
def Answers (make : Template.Spec I → Except RenderError I) (calls : List (Call I)) : Prop :=
  ∀ call ∈ calls, make call.spec = call.answer

/-- No component is in the log twice, so some function gives all its answers. -/
theorem exists_answers {calls : List (Call I)} (h : (calls.map (·.spec.name)).Nodup) :
    ∃ make, Answers make calls := by
  refine ⟨fun spec => ((calls.find? (·.spec.name = spec.name)).map (·.answer)).getD
    (.error (.dataShape spec.name)), fun call hcall => ?_⟩
  cases hfound : calls.find? (·.spec.name = call.spec.name) with
  | none => simpa using List.find?_eq_none.1 hfound call hcall
  | some first =>
    have hname : first.spec.name = call.spec.name := by simpa using List.find?_some hfound
    obtain rfl := List.inj_on_of_nodup_map h (List.mem_of_find?_eq_some hfound) hcall hname
    simp [hfound]

end Renderer

namespace Registry

open Renderer (Call Answers)

variable {S I : Type} {renderer : Renderer S I} {make : Template.Spec I → Except RenderError I}
  {r r₁ : Registry I}

/-! ## A pass with a renderer -/

/-- `materializeAll` with a renderer, whose memory goes from one component to the next. -/
def materializeAllWith (renderer : Renderer S I) (r : Registry I) :
    List Nat → S → (Registry I × Except BuildError Unit) × S
  | [], s => ((r, .ok ()), s)
  | id :: ids, s =>
    match r.components[id]? with
    | none => materializeAllWith renderer r ids s
    | some c =>
      match renderer (r.specOf c) s with
      | (.error e, s) => ((r, .error (.render c.path e)), s)
      | (.ok i, s) => materializeAllWith renderer (r.equip id i) ids s

/-- `materialize` with a renderer. -/
def materializeWith (renderer : Renderer S I) (r : Registry I) (s : S) :
    (Registry I × Except BuildError Unit) × S :=
  match r.require .styled with
  | .error e => ((r, .error e), s)
  | .ok _ =>
    match r.postOrder with
    | .error e => ((r, .error e), s)
    | .ok order =>
      match materializeAllWith renderer r order s with
      | ((r, .error e), s) => ((r, .error e), s)
      | ((r, .ok _), s) => (({ r with stage := .materialized }, .ok ()), s)

/-- Nobody notices that a renderer is recorded: but for the log, which only grows, the pass is the
same. And it is the pass of any function that gives the answers of the log. -/
theorem materializeAllWith_recorded (renderer : Renderer S I) (ids : List Nat) (r : Registry I)
    (s : S) (calls : List (Call I)) :
    ∃ new, materializeAllWith renderer.recorded r ids (s, calls) =
        ((materializeAllWith renderer r ids s).1, (materializeAllWith renderer r ids s).2,
          calls ++ new) ∧
      ∀ make, Answers make new →
        materializeAll make r ids = (materializeAllWith renderer r ids s).1 := by
  induction ids generalizing r s calls with
  | nil => exact ⟨[], by simp [materializeAllWith], fun _ _ => rfl⟩
  | cons id ids ih =>
    simp only [materializeAllWith, materializeAll]
    cases r.components[id]? with
    | none => exact ih r s calls
    | some c =>
      simp only [Renderer.recorded]
      rcases renderer (r.specOf c) s with ⟨e | i, s'⟩
      · refine ⟨[⟨r.specOf c, .error e⟩], rfl, fun make hmake => ?_⟩
        have hcall := hmake _ (List.mem_singleton_self _)
        simp only [hcall]
      · obtain ⟨new, hrun, hnew⟩ := ih (r.equip id i) s' (calls ++ [⟨r.specOf c, .ok i⟩])
        refine ⟨⟨r.specOf c, .ok i⟩ :: new, by simp [hrun], fun make hmake => ?_⟩
        have hcall := hmake _ List.mem_cons_self
        simp only [hcall]
        exact hnew make fun call hmem => hmake call (List.mem_cons_of_mem _ hmem)

/-! ## What is handed over -/

/-- What is handed over for a component after some calls: its own name, template and exports, and
under the names of the components that it depends on the instances that these calls have made. -/
structure Fits (r : Registry I) (c : Component I) (calls : List (Call I))
    (spec : Template.Spec I) : Prop where
  /-- its own name -/
  name_eq : spec.name = c.name
  /-- its own template -/
  template_eq : spec.template = c.blocks.template
  /-- its own exports -/
  exports_eq : spec.exports = c.exports
  /-- the names are those of what it depends on -/
  key_iff : ∀ name, (∃ i, Dict.get? name spec.dependencies = some i) ↔
    ∃ d ∈ c.deps, ∃ c', r.components[d]? = some c' ∧ c'.name = name
  /-- the instances were made in these calls -/
  made : ∀ name i, Dict.get? name spec.dependencies = some i →
    ∃ call ∈ calls, call.spec.name = name ∧ call.answer = .ok i

/-- Calls that are each about a component and fit it, after those before them. -/
inductive Handed (r : Registry I) : List (Call I) → Prop where
  /-- no calls -/
  | nil : Handed r []
  /-- one more call -/
  | concat {calls : List (Call I)} {spec : Template.Spec I} {answer : Except RenderError I}
      {c : Component I} (before : Handed r calls) (mem : c ∈ r.components)
      (fits : r.Fits c calls spec) : Handed r (calls ++ [⟨spec, answer⟩])

/-- How far a pass has come that has not failed yet: the components at some places have had their
turn. -/
structure Progress (r : Registry I) (done : List Nat) (r₁ : Registry I)
    (calls : List (Call I)) : Prop where
  /-- there was one call for each of them, in this order -/
  names_eq : calls.map (·.spec.name) = r.namesOf done
  /-- every call fits -/
  handed : r.Handed calls
  /-- each of them has the instance that was made in its call, and nothing else of it is new -/
  fresh : ∀ id ∈ done, ∀ c, r.components[id]? = some c → ∃ call ∈ calls, ∃ i,
    call.spec.name = c.name ∧ call.answer = .ok i ∧
      r₁.components[id]? = some { c with built? := some i }
  /-- the others are as they were -/
  kept : ∀ id, id ∉ done → r₁.components[id]? = r.components[id]?

/-- How a pass in some order ends. -/
inductive Ended (r : Registry I) (order : List Nat) (r' : Registry I) (calls : List (Call I)) :
    Except BuildError Unit → Prop where
  /-- every component had its turn -/
  | completed (progress : r.Progress order r' calls) : Ended r order r' calls (.ok ())
  /-- the call for one component failed, after all before it had their turn -/
  | failed {before after : List Nat} {id : Nat} {c : Component I} {made : List (Call I)}
      {spec : Template.Spec I} {e : RenderError} (order_eq : order = before ++ id :: after)
      (get_eq : r.components[id]? = some c) (progress : r.Progress before r' made)
      (fits : r.Fits c made spec) (calls_eq : calls = made ++ [⟨spec, .error e⟩]) :
      Ended r order r' calls (.error (.render c.path e))

theorem Progress.start (r : Registry I) : r.Progress [] r [] :=
  ⟨rfl, .nil, by simp, fun _ _ => rfl⟩

section Turn

variable {done : List Nat} {calls : List (Call I)} {v : Nat} {c : Component I}

/-- A component that depends on nothing but what had its turn is handed what fits it. -/
theorem Progress.fits (h : r.Progress done r₁ calls) (hlt : ∀ id ∈ done, id < r.size)
    (hmet : ∀ d ∈ c.deps, d < r.size → d ∈ done) : r.Fits c calls (r₁.specOf c) := by
  have hbuilt : ∀ d ∈ c.deps, ∀ c', r.components[d]? = some c' → ∃ call ∈ calls, ∃ i,
      call.spec.name = c'.name ∧ call.answer = .ok i ∧
        r₁.components[d]? = some { c' with built? := some i } := fun d hd c' hc' =>
    h.fresh d (hmet d hd (List.getElem?_eq_some_iff.1 hc').1) c' hc'
  -- an instance that is handed over belongs to a dependency, which has had its turn
  have hfound : ∀ name i, Dict.get? name (r₁.instancesOf c.deps) = some i →
      ∃ d ∈ c.deps, ∃ c', r.components[d]? = some c' ∧ c'.name = name ∧
        ∃ call ∈ calls, call.spec.name = name ∧ call.answer = .ok i := by
    intro name i hget
    obtain ⟨d, hd, c₁, hc₁, hname, hi⟩ := get?_instancesOf.1 hget
    cases hc' : r.components[d]? with
    | none =>
      have hnot : d ∉ done := fun hmem =>
        absurd (hlt d hmem) (Nat.not_lt_of_le (List.getElem?_eq_none_iff.1 hc'))
      rw [h.kept d hnot, hc'] at hc₁
      cases hc₁
    | some c' =>
      obtain ⟨call, hcall, i', hcname, hanswer, hget'⟩ := hbuilt d hd c' hc'
      obtain rfl := Option.some.inj (hget'.symm.trans hc₁)
      obtain rfl := Option.some.inj hi
      exact ⟨d, hd, c', hc', hname, call, hcall, hcname.trans hname, hanswer⟩
  refine ⟨rfl, rfl, rfl, fun name => ⟨?_, ?_⟩, fun name i hget => ?_⟩
  · rintro ⟨i, hget⟩
    obtain ⟨d, hd, c', hc', hname, -⟩ := hfound name i hget
    exact ⟨d, hd, c', hc', hname⟩
  · rintro ⟨d, hd, c', hc', rfl⟩
    obtain ⟨-, -, i, -, -, hget'⟩ := hbuilt d hd c' hc'
    exact ⟨i, get?_instancesOf.2 ⟨d, hd, _, hget', rfl, rfl⟩⟩
  · obtain ⟨-, -, -, -, -, hcall⟩ := hfound name i hget
    exact hcall

/-- **One turn.** A call that makes an instance brings the pass one component further. -/
theorem Progress.equip (h : r.Progress done r₁ calls) (hv : v ∉ done)
    (hc : r.components[v]? = some c) {spec : Template.Spec I} (hfits : r.Fits c calls spec) (i : I) :
    r.Progress (done ++ [v]) (r₁.equip v i) (calls ++ [⟨spec, .ok i⟩]) where
  names_eq := by
    simp only [List.map_append, List.map_cons, List.map_nil, h.names_eq, namesOf, hfits.name_eq,
      nameAt_eq hc]
  handed := h.handed.concat (List.mem_of_getElem? hc) hfits
  fresh := by
    intro id hid c' hc'
    rcases List.mem_append.1 hid with hid | hid
    · obtain ⟨call, hcall, i', hname, hanswer, hget⟩ := h.fresh id hid c' hc'
      have hne : v ≠ id := fun heq => hv (heq ▸ hid)
      exact ⟨call, List.mem_append_left _ hcall, i', hname, hanswer, by
        rw [Registry.equip, getElem?_modify, if_neg hne, hget]⟩
    · obtain rfl := List.mem_singleton.1 hid
      obtain rfl := Option.some.inj (hc.symm.trans hc')
      exact ⟨_, List.mem_append_right _ (List.mem_singleton_self _), i, hfits.name_eq, rfl, by
        rw [Registry.equip, getElem?_modify, if_pos rfl, h.kept _ hv, hc, Option.map_some]⟩
  kept := by
    intro id hid
    rw [List.mem_append, not_or, List.mem_singleton] at hid
    rw [Registry.equip, getElem?_modify, if_neg (Ne.symm hid.2), h.kept id hid.1]

/-- What a component depends on comes before it in a sorted order. -/
theorem met_of_sorted {ids : List Nat} (hsorted : r.graph.Sorted (done ++ v :: ids))
    (hnodup : (done ++ v :: ids).Nodup) (hc : r.components[v]? = some c) :
    ∀ d ∈ c.deps, d < r.size → d ∈ done := by
  intro d hd hlt
  have hv : v ∉ done := fun hmem =>
    (List.nodup_append.1 hnodup).2.2 v hmem v List.mem_cons_self rfl
  have hidx := hsorted.idxOf_lt hnodup (List.mem_append_right _ List.mem_cons_self)
    (dependsOn_iff.2 ⟨c, hc, hd⟩) (r.size_graph.symm ▸ hlt)
  by_contra hnot
  rw [List.idxOf_append_of_notMem hnot, List.idxOf_append_of_notMem hv, List.idxOf_cons_self] at hidx
  omega

/-- **A whole pass.** The components that are left have their turns, or one of them fails. -/
theorem Progress.run {ids : List Nat} (h : r.Progress done r₁ calls)
    (hsorted : r.graph.Sorted (done ++ ids)) (hnodup : (done ++ ids).Nodup)
    (hlt : ∀ id ∈ done ++ ids, id < r.size) (renderer : Renderer S I) (s : S) :
    ∃ r' result s' calls',
      materializeAllWith renderer.recorded r₁ ids (s, calls) = ((r', result), s', calls') ∧
        r.Ended (done ++ ids) r' calls' result := by
  induction ids generalizing done r₁ calls s with
  | nil =>
    rw [List.append_nil]
    exact ⟨r₁, .ok (), s, calls, rfl, .completed h⟩
  | cons v ids ih =>
    obtain ⟨c, hget⟩ : ∃ c, r.components[v]? = some c :=
      ⟨_, List.getElem?_eq_getElem (hlt v (by simp))⟩
    have hv : v ∉ done := fun hmem =>
      (List.nodup_append.1 hnodup).2.2 v hmem v List.mem_cons_self rfl
    have hfits := h.fits (fun id hid => hlt id (by simp [hid])) (met_of_sorted hsorted hnodup hget)
    rw [materializeAllWith, h.kept v hv, hget]
    simp only [Renderer.recorded]
    rcases renderer (r₁.specOf c) s with ⟨e | i, s'⟩
    · exact ⟨_, _, _, _, rfl, .failed rfl hget h hfits rfl⟩
    · -- `v` moves from the components that are left to those that had their turn
      have hmove : done ++ v :: ids = (done ++ [v]) ++ ids := by simp
      rw [hmove] at hsorted hnodup hlt ⊢
      exact ih (h.equip hv hget hfits i) hsorted hnodup hlt s'

end Turn

/-! ## The pass -/

/-- What comes of a registry whose components had their turns: it is at the last stage, unless one of
them failed. -/
def concluded : Registry I × Except BuildError Unit → Registry I × Except BuildError Unit
  | (r, .error e) => (r, .error e)
  | (r, .ok _) => ({ r with stage := .materialized }, .ok ())

theorem materialize_eq_concluded {order : List Nat} (h : .styled ≤ r.stage)
    (horder : r.postOrder = .ok order) :
    r.materialize make = concluded (materializeAll make r order) := by
  simp only [materialize, require_of_le h, horder]
  rcases materializeAll make r order with ⟨r₁, e | _⟩ <;> rfl

theorem materializeWith_eq_concluded {order : List Nat} (h : .styled ≤ r.stage)
    (horder : r.postOrder = .ok order) (renderer : Renderer S I) (s : S) :
    r.materializeWith renderer s = (concluded (materializeAllWith renderer r order s).1,
      (materializeAllWith renderer r order s).2) := by
  simp only [materializeWith, require_of_le h, horder]
  rcases materializeAllWith renderer r order s with ⟨⟨r₁, e | _⟩, s'⟩ <;> rfl

theorem Ended.handed {order : List Nat} {r' : Registry I} {calls : List (Call I)}
    {result : Except BuildError Unit} (h : r.Ended order r' calls result) : r.Handed calls := by
  cases h with
  | completed hprogress => exact hprogress.handed
  | failed _ hget hprogress hfits hcalls =>
    rw [hcalls]
    exact hprogress.handed.concat (List.mem_of_getElem? hget) hfits

/-- The calls come in the order of the pass, up to where it ends. -/
theorem Ended.in_order {order : List Nat} {r' : Registry I} {calls : List (Call I)}
    {result : Except BuildError Unit} (h : r.Ended order r' calls result) :
    calls.map (·.spec.name) <+: r.namesOf order := by
  cases h with
  | completed hprogress => rw [hprogress.names_eq]
  | @failed before after id c made spec e horder hget hprogress hfits hcalls =>
    refine ⟨r.namesOf after, ?_⟩
    rw [horder, hcalls, List.map_append, hprogress.names_eq]
    simp [namesOf, hfits.name_eq, nameAt_eq hget]

/-- **A pass gives each component an instance that is made of instances of the same pass.** Whatever
a renderer does, `materialize` calls it for the components in build order and for none of them twice,
and what it hands over fits (`Handed`). The pass ends when all had their turn or one of them failed,
with the failure under the file of that component (`Ended`), and a registry whose components depend
on each other in a circle comes to no call. Nothing changes but instances, and the stage of a pass
that does not fail. -/
theorem materializeWith_ended (h : .styled ≤ r.stage) (renderer : Renderer S I) (s : S) :
    ∃ r' result s' calls,
      r.materializeWith renderer.recorded (s, []) = ((r', result), s', calls) ∧
      r.materializeWith renderer s = ((r', result), s') ∧
      (∃ make, Answers make calls ∧ r.materialize make = (r', result)) ∧
      (calls.map (·.spec.name)).Nodup ∧ r.Handed calls ∧ r'.index = r.index ∧
      r'.stage = (if result.isOk then .materialized else r.stage) ∧
      match r.postOrder with
      | .ok order => (∀ id, id ∈ order ↔ id < r.size) ∧ r.Ended order r' calls result
      | .error e => result = .error e ∧ r' = r ∧ calls = [] := by
  cases horder : r.postOrder with
  | error e =>
    have hrequire := require_of_le h
    refine ⟨r, .error e, s, [], ?_, ?_, ⟨fun spec => .error (.dataShape spec.name), ?_, ?_⟩,
      List.nodup_nil, .nil, rfl, rfl, rfl, rfl, rfl⟩
    · simp only [materializeWith, hrequire, horder]
    · simp only [materializeWith, hrequire, horder]
    · exact fun call hmem => absurd hmem List.not_mem_nil
    · simp only [materialize, hrequire, horder]
  | ok order =>
    obtain ⟨hsorted, hnodup, hmem⟩ := postOrder_ok horder
    obtain ⟨r₁, result, s', calls, hrun, hended⟩ := (Progress.start r).run hsorted hnodup
      (fun id hid => (hmem id).1 hid) renderer s
    have hnames : (calls.map (·.spec.name)).Nodup := by
      refine hended.in_order.sublist.nodup (hnodup.map_on fun i hi j hj => ?_)
      exact nameAt_injOn ((hmem i).1 hi) ((hmem j).1 hj)
    -- the same pass, not recorded and with a function that knows the log
    obtain ⟨make, hmake⟩ := Renderer.exists_answers hnames
    obtain ⟨new, hsame, hnew⟩ := materializeAllWith_recorded renderer order r s []
    rw [List.nil_append, hrun] at hsame
    obtain ⟨hplain, hlog⟩ := Prod.mk.inj hsame
    obtain ⟨hmemory, rfl⟩ := Prod.mk.inj hlog
    have hunrecorded : materializeAllWith renderer r order s = ((r₁, result), s') :=
      Prod.ext hplain.symm hmemory.symm
    have hfunction := (hnew make hmake).trans hplain.symm
    have hkept := sameBut_materializeAll make order r
    rw [hfunction] at hkept
    refine ⟨(concluded (r₁, result)).1, (concluded (r₁, result)).2, s', calls, ?_, ?_,
      ⟨make, hmake, ?_⟩, hnames, hended.handed, ?_⟩
    · rw [materializeWith_eq_concluded h horder, hrun]
    · rw [materializeWith_eq_concluded h horder, hunrecorded]
    · rw [materialize_eq_concluded h horder, hfunction]
    · cases hended with
      | completed hprogress =>
        exact ⟨hkept.index_eq, rfl, hmem, .completed
          ⟨hprogress.names_eq, hprogress.handed, hprogress.fresh, hprogress.kept⟩⟩
      | failed heq hget hprogress hfits hcalls =>
        exact ⟨hkept.index_eq, hkept.stage_eq, hmem, .failed heq hget hprogress hfits hcalls⟩

/-- A component with an instance. -/
def stocked (name : String) (deps : List Nat) (i : Nat) : Component Nat where
  name := name
  path := ⟨name ++ ".vue"⟩
  blocks := ⟨name, "", []⟩
  exports := {}
  deps := deps
  built? := some i

/-- Three components that have instances already. The first one depends on the second one. -/
def shelf : Registry Nat where
  components := [stocked "page" [1] 70, stocked "card" [] 71, stocked "note" [] 72]
  index := Dict.insert "note" 2 (Dict.insert "card" 1 (Dict.insert "page" 0 []))
  stage := .materialized
  indexed := ((Indexes.nil.concat rfl).concat (by decide)).concat (by decide)

/-- A renderer that numbers its calls, and that knows nothing of notes. -/
def numbering : Renderer Nat Nat := fun spec n =>
  (if spec.name = "note" then .error (.dataShape spec.name) else .ok n, n + 1)

/-- The card is made anew, the page is made of the new card, and the note keeps what it had. -/
theorem materializeWith_ended_shelf :
    Stage.styled ≤ shelf.stage ∧ ∃ r' s' calls,
      shelf.materializeWith numbering.recorded (5, []) =
        ((r', .error (.render ⟨"note.vue"⟩ (.dataShape "note"))), s', calls) ∧
      calls.map (·.spec.name) = ["card", "page", "note"] ∧
      calls.map (·.spec.dependencies) = [[], [("card", 5)], []] ∧
      r'.components.map (·.built?) = [some 6, some 5, some 72] ∧
      shelf.Handed calls ∧ shelf.Ended [1, 0, 2] r' calls
        (.error (.render ⟨"note.vue"⟩ (.dataShape "note"))) := by
  have hready : Stage.styled ≤ shelf.stage := by decide
  have horder : shelf.postOrder = .ok [1, 0, 2] := by cbv
  obtain ⟨r', result, s', calls, hrun, -, -, -, hhanded, -, -, hend⟩ :=
    materializeWith_ended hready numbering 5
  rw [horder] at hend
  -- the pass itself runs through, once its order is known
  have hdone := hrun
  simp only [materializeWith, require_of_le hready, horder] at hdone
  cases hdone
  refine ⟨hready, _, _, _, hrun, ?_, ?_, ?_, hhanded, hend.2⟩
  · decide
  · decide
  · decide

end Registry

end StaticSite
