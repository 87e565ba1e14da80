import StaticSite.Proofs.Escaping

/-!
# What a template sees of its data

A template reads its scope only through the expressions that are written in it, be it between braces
or at attributes. `nodesSources` lists them, those in the children of a use and in the fallback of a
slot among them, but none of the templates that are used: these read scopes of their own. Where
the listed expressions have the same values, or no value, in two scopes, rendering comes to the same
text or the same error.

What a slot shows is no part of this. It is handed down from the outside, for both scopes alike.
-/

namespace StaticSite.Template

/-! ## Expressions of a template -/

/-- The expression that an attribute is bound to, if it is bound to one. -/
def source? : Binding → Option String
  | .expression source => some source
  | .literal _ => none
  | .flag => none

/-- The expressions at some attributes. -/
def sourcesOf (attributes : List (String × Binding)) : List String :=
  attributes.filterMap fun (_, binding) => source? binding

mutual

/-- The expressions that are written in a node. -/
def nodeSources : Node → List String
  | .text _ => []
  | .expression source => [source]
  | .component _ _ _ attributes children => sourcesOf attributes ++ nodesSources children
  | .slot fallback => nodesSources fallback

/-- The expressions that are written in some nodes. -/
def nodesSources : List Node → List String
  | [] => []
  | node :: nodes => nodeSources node ++ nodesSources nodes

end

/-- Expressions have the same values in two scopes, or no value in both. -/
def AgreeOn (sources : List String) (scope scope' : Fields) : Prop :=
  ∀ source ∈ sources, evaluate? scope source = evaluate? scope' source

/-- The scope of an instance for given data. -/
def dataScope (i : Instance) (fields : Fields) : Fields := Dict.insertAll i.defaults fields

/-! ## Scopes that agree -/

variable {scope scope' : Fields} {sources sources' : List String}

theorem AgreeOn.left (h : AgreeOn (sources ++ sources') scope scope') :
    AgreeOn sources scope scope' :=
  fun source hsource => h source (List.mem_append_left _ hsource)

theorem AgreeOn.right (h : AgreeOn (sources ++ sources') scope scope') :
    AgreeOn sources' scope scope' :=
  fun source hsource => h source (List.mem_append_right _ hsource)

theorem evaluate_congr (component : String) {source : String}
    (h : evaluate? scope source = evaluate? scope' source) :
    evaluate component scope source = evaluate component scope' source := by
  rw [evaluate, evaluate, h]

/-- An attribute reads the scope through its expression. -/
theorem value_congr (component : String) {binding : Binding}
    (h : ∀ source, source? binding = some source →
      evaluate? scope source = evaluate? scope' source) :
    Binding.value component scope binding = Binding.value component scope' binding := by
  cases binding with
  | literal value => rfl
  | expression source => exact evaluate_congr component (h source rfl)
  | flag => rfl

/-- A used component gets the same scope from both. -/
theorem useScope_congr (component : String) (defaults : Fields)
    {attributes : List (String × Binding)} (h : AgreeOn (sourcesOf attributes) scope scope') :
    useScope component scope defaults attributes =
      useScope component scope' defaults attributes := by
  rw [useScope, useScope]
  induction attributes generalizing defaults with
  | nil => rfl
  | cons entry rest ih =>
    obtain ⟨name, binding⟩ := entry
    have hvalue : Binding.value component scope binding =
        Binding.value component scope' binding := by
      refine value_congr component fun source hsource => h source ?_
      exact List.mem_filterMap.2 ⟨(name, binding), List.mem_cons_self, hsource⟩
    have hrest : AgreeOn (sourcesOf rest) scope scope' := by
      intro source hsource
      obtain ⟨other, hother, hof⟩ := List.mem_filterMap.1 hsource
      exact h source (List.mem_filterMap.2 ⟨other, List.mem_cons_of_mem _ hother, hof⟩)
    simp only [List.foldlM_cons, hvalue]
    -- the fields put together so far are the same, and the other attributes are added to them
    congr 1
    funext inner
    exact ih inner hrest

mutual

/-- A node reads the scope through its expressions. -/
theorem renderNode_congr (component : String) (content : SlotContent) : (node : Node) →
    AgreeOn (nodeSources node) scope scope' →
      renderNode component scope content node = renderNode component scope' content node
  | .text value, _ => by rw [renderNode, renderNode]
  | .expression source, h => by
    rw [renderNode, renderNode, evaluate_congr component (h source List.mem_cons_self)]
  | .component name defaults body attributes children, h => by
    rw [nodeSources] at h
    -- `body` is rendered in the scope that the attributes make, and shows the text of the children
    have hinner := useScope_congr component defaults h.left
    have hgiven := renderNodes_congr component none children h.right
    rw [renderNode, renderNode, hinner, hgiven]
  | .slot fallback, h => by
    rw [nodeSources] at h
    cases content with
    | none => rw [renderNode, renderNode, renderNodes_congr component none fallback h]
    | some shown => rw [renderNode, renderNode]

/-- Nodes read the scope through their expressions. -/
theorem renderNodes_congr (component : String) (content : SlotContent) : (nodes : List Node) →
    AgreeOn (nodesSources nodes) scope scope' →
      renderNodes component scope content nodes = renderNodes component scope' content nodes
  | [], _ => by rw [renderNodes, renderNodes]
  | node :: nodes, h => by
    rw [nodesSources] at h
    rw [renderNodes, renderNodes, renderNode_congr component content node h.left,
      renderNodes_congr component content nodes h.right]

end

/-! ## Rendering with other data -/

/-- **A template sees of its data what its own expressions say.** If every expression written in the
template of an instance has the same value for two objects, or no value for both, the instance is
rendered to the same text or fails with the same error. Of this a used component takes part in what
is written at its use: where the attributes and the children of the use agree, the use is rendered
alike, whatever else the data hold and whatever the templates behind it read. -/
theorem render_congr (i : Instance) (fields fields' : Fields) :
    (AgreeOn (nodesSources i.nodes) (dataScope i fields) (dataScope i fields') →
      render i (.object fields) = render i (.object fields')) ∧
    ∀ (used : Instance) (attributes : List (String × Binding)) (children : List Node)
      (content : SlotContent),
      AgreeOn (sourcesOf attributes ++ nodesSources children) (dataScope i fields)
          (dataScope i fields') →
        renderNode i.name (dataScope i fields) content (used.use attributes children) =
          renderNode i.name (dataScope i fields') content (used.use attributes children) := by
  constructor
  · intro h
    have hnodes := renderNodes_congr i.name none i.nodes h
    rw [render, render]
    exact congrArg (fun text => text >>= fun s => pure (String.ofList s)) hnodes
  · intro used attributes children content h
    refine renderNode_congr i.name content _ ?_
    rwa [Instance.use, nodeSources]

/-- What a page with cards knows, and what it does not know. -/
def cardsData (who title : String) : Fields := [("title", .text title), ("who", .text who)]

/-- A page has a title of its own, of which the cards on it see nothing: what the page is called
makes no difference to its text, although a card shows a title. -/
theorem render_cards_congr : AgreeOn (nodesSources cards.nodes)
      (dataScope cards (cardsData "Ann" "One")) (dataScope cards (cardsData "Ann" "Two")) ∧
    nodesSources cards.nodes = ["who", "who"] ∧ nodesSources card.nodes = ["title"] ∧
    render cards (.object (cardsData "Ann" "One")) =
      render cards (.object (cardsData "Ann" "Two")) := by
  have hcards : nodesSources cards.nodes = ["who", "who"] := rfl
  have hagree : AgreeOn (nodesSources cards.nodes) (dataScope cards (cardsData "Ann" "One"))
      (dataScope cards (cardsData "Ann" "Two")) := by
    intro source hsource
    obtain rfl : source = "who" := by simpa [hcards] using hsource
    rfl
  exact ⟨hagree, hcards, rfl, (render_congr cards _ _).1 hagree⟩

end StaticSite.Template
