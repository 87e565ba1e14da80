import StaticSite.Component.Graph
import StaticSite.Site.Error
import StaticSite.Template.Render
import StaticSite.Text.Distinct

/-!
# The registry of components

A registry holds the components of a site, each under its own name, and takes them through four
passes. `link` finds out which components each one uses, `checkCycles` makes sure that none uses
itself, `aggregateStyles` gathers style sheets, and `materialize` has an instance made of each.
A pass refuses a registry that has not come as far as the pass before it, and a new component takes
the registry back to the start.

The registry does not know what an instance is: `materialize` is given the function that makes one.
-/

namespace StaticSite

open Text

/-- A component of a site, together with what the passes have found out about it. -/
structure Component (I : Type) where
  /-- the name, by which templates use it -/
  name : String
  /-- the file it comes from -/
  path : Path
  /-- the blocks of that file -/
  blocks : Blocks
  /-- what its script exports -/
  exports : Exports
  /-- the places of the components that its template uses, in order of first appearance -/
  deps : List Nat := []
  /-- its own style sheets and those of the components that it uses, each once -/
  styles : List String := []
  /-- its instance, once made -/
  built? : Option I := none

namespace Component

variable {I : Type}

/-- The component that a file with this text defines. It is named after the file. -/
def ofSource (path : Path) (raw : String) : Except BuildError (Component I) :=
  match Blocks.parse raw with
  | .error e => .error (.source path e)
  | .ok blocks =>
    match Exports.parse blocks.script with
    | .error e => .error (.source path e)
    | .ok exports => .ok { name := path.stem?.getD "", path, blocks, exports }

/-- The names of the tags in the template, each once. -/
def tags (c : Component I) : List String := Markup.tagNames c.blocks.template

end Component

/-- A component is found under its name, and under no other name. -/
def Indexes (index : Dict Nat) (names : List String) : Prop :=
  ∀ (name : String) (id : Nat), Dict.get? name index = some id ↔ names[id]? = some name

theorem Indexes.nil : Indexes [] [] := by
  intro name id
  rw [Dict.get?, List.getElem?_nil]
  constructor <;> intro h <;> cases h

theorem Indexes.concat {index : Dict Nat} {names : List String} {name : String}
    (h : Indexes index names) (hnew : Dict.get? name index = none) :
    Indexes (Dict.insert name names.length index) (names ++ [name]) := by
  have hnot : ∀ id : Nat, names[id]? ≠ some name := by
    intro id hid
    rw [(h name id).2 hid] at hnew
    cases hnew
  intro n id
  rw [Dict.get?_insert]
  by_cases hn : n = name
  · subst hn
    rw [if_pos rfl, Option.some.injEq]
    constructor
    · rintro rfl
      exact List.getElem?_concat_length
    · intro hid
      rcases Nat.lt_trichotomy id names.length with hlt | heq | hgt
      · rw [List.getElem?_append_left hlt] at hid
        exact absurd hid (hnot id)
      · exact heq.symm
      · rw [List.getElem?_eq_none (by simp; omega)] at hid
        cases hid
  · rw [if_neg hn, h n id]
    rcases Nat.lt_trichotomy id names.length with hlt | rfl | hgt
    · rw [List.getElem?_append_left hlt]
    · simp [Ne.symm hn]
    · rw [List.getElem?_eq_none (by omega), List.getElem?_eq_none (by simp; omega)]

/-- The components of a site, an index of their names, and how far they are processed. -/
structure Registry (I : Type) where
  /-- the components in the order in which they were entered -/
  components : List (Component I) := []
  /-- the place of the component with a name -/
  index : Dict Nat := []
  /-- how far they are processed -/
  stage : Stage := .loaded
  /-- the index leads to the components -/
  indexed : Indexes index (components.map (·.name)) := by exact Indexes.nil

namespace Registry

variable {I : Type}

/-- How many components there are. -/
def size (r : Registry I) : Nat := r.components.length

/-- The place of the component with a name. -/
def idOf? (r : Registry I) (name : String) : Option Nat := Dict.get? name r.index

/-- A name leads to the place of the component that has it. -/
theorem idOf?_eq_some {r : Registry I} {name : String} {id : Nat} :
    r.idOf? name = some id ↔ ∃ c, r.components[id]? = some c ∧ c.name = name := by
  rw [idOf?, r.indexed name id, List.getElem?_map, Option.map_eq_some_iff]

/-- The component with a name. -/
def find? (r : Registry I) (name : String) : Option (Component I) :=
  (r.idOf? name).bind (r.components[·]?)

theorem find?_eq_none {r : Registry I} {name : String} :
    r.find? name = none ↔ r.idOf? name = none := by
  constructor
  · intro h
    cases hid : r.idOf? name with
    | none => rfl
    | some id =>
      obtain ⟨c, hc, -⟩ := idOf?_eq_some.1 hid
      simp [find?, hid, hc] at h
  · intro h
    rw [find?, h, Option.bind_none]

/-- Enters a component, if its name is new. -/
def insert (r : Registry I) (c : Component I) : Except BuildError (Registry I) :=
  match _h : r.find? c.name with
  | some first => .error (.duplicateComponent c.name first.path c.path)
  | none => .ok
    { components := r.components ++ [c]
      index := Dict.insert c.name r.size r.index
      stage := .loaded
      indexed := by
        have hnew := r.indexed.concat (find?_eq_none.1 _h)
        rwa [List.length_map, ← List.map_singleton, ← List.map_append] at hnew }

/-- Refuses a registry that has not come as far as a stage. -/
def require (r : Registry I) (stage : Stage) : Except BuildError Unit :=
  if stage ≤ r.stage then .ok () else .error (.notReady stage r.stage)

/-- The places of the components that tags name. Other tags are left out. -/
def resolveTags (r : Registry I) (tags : List String) : List Nat := tags.filterMap r.idOf?

/-- The dependency graph, as far as `link` has found it. -/
def graph (r : Registry I) : Graph := ⟨r.components.map (·.deps)⟩

/-- The name of the component at a place. -/
def nameAt (r : Registry I) (id : Nat) : String := (r.components[id]?.map (·.name)).getD ""

/-- The names of components by their places. -/
def namesOf (r : Registry I) (ids : List Nat) : List String := ids.map r.nameAt

/-- The names along a circle of dependencies. -/
def findCycle (r : Registry I) : Option (List String) :=
  match r.graph.depthFirst with
  | .ok _ => none
  | .error circle => some (r.namesOf circle)

/-- All components, those that one depends on before it. -/
def postOrder (r : Registry I) : Except BuildError (List Nat) :=
  match r.graph.depthFirst with
  | .ok order => .ok order
  | .error _ => .error (.cycle (r.findCycle.getD []))

/-- The registry with other data about components of the same names. -/
def withComponents (r : Registry I) (components : List (Component I))
    (h : components.map (·.name) = r.components.map (·.name)) : Registry I :=
  { r with components, indexed := by rw [h]; exact r.indexed }

/-- What a change keeps of a component, it keeps of all. -/
theorem map_modify {α : Type} {cs : List (Component I)} {id : Nat} {f : Component I → Component I}
    {view : Component I → α} (hf : ∀ c, view (f c) = view c) :
    (cs.modify id f).map view = cs.map view := by
  apply List.ext_getElem?
  intro i
  simp only [List.getElem?_map, List.getElem?_modify]
  cases cs[i]? with
  | none => rfl
  | some c => by_cases hi : id = i <;> simp [hi, hf]

/-- Changes the component at a place, but not its name. -/
def modify (r : Registry I) (id : Nat) (f : Component I → Component I)
    (hf : ∀ c, (f c).name = c.name) : Registry I :=
  r.withComponents (r.components.modify id f) (map_modify hf)

/-! ## The passes -/

/-- Finds out which components each template uses. -/
def link (r : Registry I) : Registry I :=
  { r.withComponents (r.components.map fun c => { c with deps := r.resolveTags c.tags })
      (by simp) with stage := .linked }

/-- Makes sure that no component uses itself. -/
def checkCycles (r : Registry I) : Except BuildError (Registry I) := do
  r.require .linked
  match r.findCycle with
  | some names => throw (.cycle names)
  | none => return { r with stage := r.stage.later .checked }

/-- The style sheets of a component: its own, then those of its dependencies, each once. -/
def stylesOf (r : Registry I) (c : Component I) : List String :=
  distinct (c.exports.styles ++ c.deps.flatMap fun id => (r.components[id]?.map (·.styles)).getD [])

/-- Gathers the style sheets of one component. -/
def styleOne (r : Registry I) (id : Nat) : Registry I :=
  r.modify id (fun c => { c with styles := r.stylesOf c }) fun _ => rfl

/-- Gathers the style sheets of every component, dependencies first. -/
def aggregateStyles (r : Registry I) : Except BuildError (Registry I) := do
  r.require .checked
  let order ← r.postOrder
  let r := order.foldl styleOne r
  return { r with stage := r.stage.later .styled }

/-- The instances at some places, by the names of their components. -/
def instancesOf (r : Registry I) (ids : List Nat) : Dict I :=
  Dict.ofList <| ids.filterMap fun id => do
    let c ← r.components[id]?
    let i ← c.built?
    return (c.name, i)

/-- What is needed to make an instance of a component. -/
def specOf (r : Registry I) (c : Component I) : Template.Spec I :=
  ⟨c.name, c.blocks.template, c.exports, r.instancesOf c.deps⟩

/-- Gives the component at a place its instance. -/
def equip (r : Registry I) (id : Nat) (i : I) : Registry I :=
  r.modify id (fun c => { c with built? := some i }) fun _ => rfl

/-- Makes the instances of the components at some places, one after the other, up to the first
failure. -/
def materializeAll (make : Template.Spec I → Except RenderError I) (r : Registry I) :
    List Nat → Registry I × Except BuildError Unit
  | [] => (r, .ok ())
  | id :: ids =>
    match r.components[id]? with
    | none => materializeAll make r ids
    | some c =>
      match make (r.specOf c) with
      | .error e => (r, .error (.render c.path e))
      | .ok i => materializeAll make (r.equip id i) ids

/-- Makes an instance of every component, dependencies first. After a failure the instances made so
far stay. -/
def materialize (make : Template.Spec I → Except RenderError I) (r : Registry I) :
    Registry I × Except BuildError Unit :=
  match r.require .styled with
  | .error e => (r, .error e)
  | .ok _ =>
    match r.postOrder with
    | .error e => (r, .error e)
    | .ok order =>
      match materializeAll make r order with
      | (r, .error e) => (r, .error e)
      | (r, .ok _) => ({ r with stage := .materialized }, .ok ())

/-- All passes in order, up to the first that fails. What the earlier ones did stays. -/
def prepare (make : Template.Spec I → Except RenderError I) (r : Registry I) :
    Registry I × Except BuildError Unit :=
  let linked := r.link
  match linked.checkCycles with
  | .error e => (linked, .error e)
  | .ok checked =>
    match checked.aggregateStyles with
    | .error e => (checked, .error e)
    | .ok styled => styled.materialize make

end Registry

end StaticSite
