import StaticSite.Proofs.Success
import StaticSite.Template.Render

/-!
# What slots show

A use of a component that gives it plain text means this: in the template of the component every
slot is replaced by the text, fallback and all (`fillNodes`). That is how slots are described, and
it is what rendering does with the slots that a template keeps to itself.

A template may also hand a slot on, by putting it among the children of a use of its own. The
children are rendered with nothing given to their slots, so such a slot falls back, and the text
that was to stand there is lost where the used component shows its children. `nodeForwards` finds
these places, and `slot_substitution` says that they are the only ones at which rendering departs
from the substitution.

That text is lost there is seen by counting. Given longer and longer text, what shows it at more
places grows faster.
-/

namespace StaticSite.Template

/-! ## Nodes with their slots replaced -/

/-- Whether a node is a slot. -/
def isSlot : Node → Bool
  | .slot _ => true
  | .text _ => false
  | .expression _ => false
  | .component .. => false

/-- A slot replaced by what is given. All other nodes stay, slots among their children included. -/
def fillSlot (given : List Node) (node : Node) : List Node := if isSlot node then given else [node]

mutual

/-- A node with every slot in it replaced by what is given. -/
def fillNode (given : List Node) : Node → List Node
  | .text value => [.text value]
  | .expression source => [.expression source]
  | .component name defaults body attributes children =>
    [.component name defaults body attributes (fillNodes given children)]
  | .slot _ => given

/-- Nodes with every slot in them replaced by what is given. -/
def fillNodes (given : List Node) : List Node → List Node
  | [] => []
  | node :: nodes => fillNode given node ++ fillNodes given nodes

end

mutual

/-- Whether a used component shows a slot that stands among the children of the use. -/
def nodeForwards : Node → Bool
  | .text _ => false
  | .expression _ => false
  | .component _ _ body _ children => body.any isSlot && nodesShow children
  | .slot _ => false

/-- Whether a slot of some nodes is shown where the nodes are, be it through a used component. -/
def nodesShow : List Node → Bool
  | [] => false
  | node :: nodes => (isSlot node || nodeForwards node) || nodesShow nodes

end

/-- Whether a node shows what it is filled with, once every slot in it is replaced. -/
def shows (node : Node) : Bool := isSlot node || nodeForwards node

/-- Nodes of plain text. -/
def texts (values : List String) : List Node := values.map .text

/-- Nodes rendered in the scope that a use makes for a component, with nothing given to slots. -/
def renderWithin (component : String) (scope : Fields) (w : Instance)
    (attributes : List (String × Binding)) (nodes : List Node) :
    Except RenderError (List Char) := do
  let inner ← useScope component scope w.defaults attributes
  renderNodes w.name inner none nodes

theorem exists_of_isSlot {node : Node} (h : isSlot node = true) :
    ∃ fallback, node = .slot fallback := by
  cases node with
  | slot fallback => exact ⟨fallback, rfl⟩
  | _ => cases h

theorem nodesShow_eq_any (nodes : List Node) : nodesShow nodes = nodes.any shows := by
  induction nodes with
  | nil => rfl
  | cons node nodes ih => rw [nodesShow, List.any_cons, ih, shows]

theorem fillNodes_eq_nil {given nodes : List Node} (hgiven : given ≠ []) :
    fillNodes given nodes = [] ↔ nodes = [] := by
  cases nodes with
  | nil => simp [fillNodes]
  | cons node nodes => cases node <;> simp [fillNodes, fillNode, hgiven]

/-! ## Rendering nodes that are put together -/

variable {component : String} {scope : Fields} {content : SlotContent}

theorem renderNodes_append (xs ys : List Node) :
    renderNodes component scope content (xs ++ ys) = do
      let first ← renderNodes component scope content xs
      let rest ← renderNodes component scope content ys
      return first ++ rest := by
  induction xs with
  | nil =>
    rw [List.nil_append, renderNodes]
    cases renderNodes component scope content ys <;> rfl
  | cons x xs ih =>
    rw [List.cons_append, renderNodes, renderNodes, ih]
    rcases renderNode component scope content x with e | first
    · rfl
    rcases renderNodes component scope content xs with e | rest
    · rfl
    rcases renderNodes component scope content ys with e | last
    · rfl
    · exact congrArg Except.ok (List.append_assoc first rest last).symm

theorem renderNodes_singleton (node : Node) :
    renderNodes component scope content [node] = renderNode component scope content node := by
  rw [renderNodes, renderNodes]
  rcases renderNode component scope content node with e | text
  · rfl
  · exact congrArg Except.ok (List.append_nil text)

theorem renderNodes_texts (values : List String) :
    renderNodes component scope content (texts values) = .ok (values.flatMap String.toList) := by
  induction values with
  | nil => rw [texts, List.map_nil, renderNodes, List.flatMap_nil]
  | cons value values ih =>
    rw [texts] at ih
    rw [texts, List.map_cons, renderNodes, renderNode, ih, List.flatMap_cons]
    rfl

/-- Only a slot shows what is given. -/
theorem renderNode_of_not_isSlot {node : Node} (h : isSlot node = false)
    (content' : SlotContent) :
    renderNode component scope content node = renderNode component scope content' node := by
  cases node with
  | text value => rw [renderNode, renderNode]
  | expression source => rw [renderNode, renderNode]
  | component name defaults body attributes children => rw [renderNode, renderNode]
  | slot fallback => cases h

theorem renderNodes_of_no_slot {nodes : List Node} (h : nodes.any isSlot = false)
    (content' : SlotContent) :
    renderNodes component scope content nodes = renderNodes component scope content' nodes := by
  induction nodes with
  | nil => rw [renderNodes, renderNodes]
  | cons node nodes ih =>
    rw [List.any_cons, Bool.or_eq_false_iff] at h
    rw [renderNodes, renderNodes, renderNode_of_not_isSlot h.1 content', ih h.2]

/-! ## Slots that a template keeps to itself -/

/-- What is given is shown in the place of the slots. -/
theorem renderNodes_fillSlot (values : List String) (nodes : List Node) :
    renderNodes component scope (some (.ok (values.flatMap String.toList))) nodes =
      renderNodes component scope none (nodes.flatMap (fillSlot (texts values))) := by
  induction nodes with
  | nil => rw [List.flatMap_nil, renderNodes, renderNodes]
  | cons node nodes ih =>
    rw [List.flatMap_cons, renderNodes_append, renderNodes, ih]
    cases hslot : isSlot node with
    | true =>
      obtain ⟨fallback, rfl⟩ := exists_of_isSlot hslot
      rw [fillSlot, hslot, if_pos rfl, renderNodes_texts, renderNode]
    | false =>
      rw [fillSlot, hslot, if_neg Bool.false_ne_true, renderNodes_singleton,
        renderNode_of_not_isSlot hslot none]

/-- A use of a component shows text that it is given in the place of the slots of the component. -/
theorem renderNode_use_texts (w : Instance) (attributes : List (String × Binding))
    {values : List String} (hvalues : values ≠ []) :
    renderNode component scope content (w.use attributes (texts values)) =
      renderWithin component scope w attributes (w.nodes.flatMap (fillSlot (texts values))) := by
  have hgiven : (texts values).isEmpty = false := by
    simpa [texts, List.isEmpty_iff] using hvalues
  rw [Instance.use, renderNode, renderWithin]
  refine bind_congr fun inner => ?_
  rw [hgiven, if_neg Bool.false_ne_true, renderNodes_texts]
  exact renderNodes_fillSlot values w.nodes

/-! ## Slots among children that no component shows -/

mutual

/-- Where no slot is forwarded, only a node that is a slot itself can be told from its filling. -/
theorem renderNodes_fillNode {given : List Node} (hgiven : given ≠ []) : (node : Node) →
    isSlot node = false → nodeForwards node = false →
      renderNodes component scope none (fillNode given node) =
        renderNode component scope none node
  | .text value, _, _ => by rw [fillNode, renderNodes_singleton]
  | .expression source, _, _ => by rw [fillNode, renderNodes_singleton]
  | .component name defaults body attributes children, _, h => by
    rw [fillNode, renderNodes_singleton, renderNode, renderNode]
    refine bind_congr fun inner => ?_
    rw [nodeForwards, Bool.and_eq_false_iff] at h
    rcases h with hbody | hchildren
    · exact renderNodes_of_no_slot hbody _
    · have hempty : (fillNodes given children).isEmpty = children.isEmpty := by
        rw [Bool.eq_iff_iff, List.isEmpty_iff, List.isEmpty_iff]
        exact fillNodes_eq_nil hgiven
      rw [hempty, renderNodes_fillNodes_eq hgiven children hchildren]
  | .slot fallback, hslot, _ => by cases hslot

/-- Nodes none of whose slots is shown can not be told from their filling. -/
theorem renderNodes_fillNodes_eq {given : List Node} (hgiven : given ≠ []) :
    (nodes : List Node) → nodesShow nodes = false →
      renderNodes component scope none (fillNodes given nodes) =
        renderNodes component scope none nodes
  | [], _ => by rw [fillNodes]
  | node :: nodes, h => by
    rw [nodesShow, Bool.or_eq_false_iff, Bool.or_eq_false_iff] at h
    obtain ⟨⟨hslot, hforwards⟩, hnodes⟩ := h
    rw [fillNodes, renderNodes_append, renderNodes_fillNode hgiven node hslot hforwards,
      renderNodes_fillNodes_eq hgiven nodes hnodes, renderNodes]

end

/-- Where no slot is forwarded, it comes to the same to leave slots among children alone. -/
theorem renderNodes_fillNodes {given : List Node} (hgiven : given ≠ []) {nodes : List Node}
    (h : nodes.any nodeForwards = false) :
    renderNodes component scope none (fillNodes given nodes) =
      renderNodes component scope none (nodes.flatMap (fillSlot given)) := by
  induction nodes with
  | nil => rw [fillNodes, List.flatMap_nil]
  | cons node nodes ih =>
    rw [List.any_cons, Bool.or_eq_false_iff] at h
    rw [fillNodes, List.flatMap_cons, renderNodes_append, renderNodes_append, ih h.2]
    cases hslot : isSlot node with
    | true =>
      obtain ⟨fallback, rfl⟩ := exists_of_isSlot hslot
      rw [fillSlot, hslot, if_pos rfl, fillNode]
    | false =>
      rw [fillSlot, hslot, if_neg Bool.false_ne_true, renderNodes_singleton,
        renderNodes_fillNode hgiven node hslot h.1]

/-! ## Slots that are forwarded -/

/-- The length of what is shown grows with each slot. -/
theorem length_renderNodes {nodes : List Node} {given text : List Char}
    (h : renderNodes component scope (some (.ok given)) nodes = .ok text) :
    ∃ own, ∀ given' : List Char, ∃ text',
      renderNodes component scope (some (.ok given')) nodes = .ok text' ∧
        text'.length = own + nodes.countP isSlot * given'.length := by
  induction nodes generalizing text with
  | nil => exact ⟨0, fun given' => ⟨[], by rw [renderNodes], by simp⟩⟩
  | cons node nodes ih =>
    rw [renderNodes] at h
    obtain ⟨first, hfirst, h⟩ := bind_eq_ok h
    obtain ⟨rest, hrest, -⟩ := bind_eq_ok h
    obtain ⟨own, hown⟩ := ih hrest
    cases hslot : isSlot node with
    | true =>
      obtain ⟨fallback, rfl⟩ := exists_of_isSlot hslot
      refine ⟨own, fun given' => ?_⟩
      obtain ⟨text', htext', hlength⟩ := hown given'
      refine ⟨given' ++ text', by rw [renderNodes, renderNode, htext']; rfl, ?_⟩
      rw [List.countP_cons_of_pos hslot, List.length_append, hlength, Nat.add_mul]
      omega
    | false =>
      refine ⟨first.length + own, fun given' => ?_⟩
      obtain ⟨text', htext', hlength⟩ := hown given'
      have hshown : renderNode component scope (some (.ok given')) node = .ok first := by
        rw [← hfirst]
        exact renderNode_of_not_isSlot hslot _
      refine ⟨first ++ text', by rw [renderNodes, hshown, htext']; rfl, ?_⟩
      rw [List.countP_cons_of_neg (by simp [hslot]), List.length_append, hlength]
      omega

/-- Nodes with a slot show what is given, if they show anything. -/
theorem length_le_of_slot {nodes : List Node} {given : Except RenderError (List Char)}
    {text : List Char} (hslot : nodes.any isSlot = true)
    (h : renderNodes component scope (some given) nodes = .ok text) :
    ∃ shown, given = .ok shown ∧ shown.length ≤ text.length := by
  induction nodes generalizing text with
  | nil => cases hslot
  | cons node nodes ih =>
    rw [renderNodes] at h
    obtain ⟨first, hfirst, h⟩ := bind_eq_ok h
    obtain ⟨rest, hrest, h⟩ := bind_eq_ok h
    cases h
    rw [List.length_append]
    rw [List.any_cons, Bool.or_eq_true] at hslot
    rcases hslot with hslot | hslot
    · obtain ⟨fallback, rfl⟩ := exists_of_isSlot hslot
      rw [renderNode] at hfirst
      exact ⟨first, hfirst, Nat.le_add_right _ _⟩
    · obtain ⟨shown, hgiven, hle⟩ := ih hslot hrest
      exact ⟨shown, hgiven, Nat.le_add_left_of_le hle⟩

mutual

/-- A node that shows what it is filled with is no shorter. -/
theorem length_le_fillNode {values : List String} (hvalues : values ≠ []) : (node : Node) →
    ∀ {text : List Char}, shows node = true →
      renderNodes component scope none (fillNode (texts values) node) = .ok text →
        (values.flatMap String.toList).length ≤ text.length
  | .text value, text, hshows, _ => by cases hshows
  | .expression source, text, hshows, _ => by cases hshows
  | .component name defaults body attributes children, text, hshows, h => by
    rw [shows, isSlot, Bool.false_or, nodeForwards, Bool.and_eq_true] at hshows
    obtain ⟨hbody, hchildren⟩ := hshows
    rw [fillNode, renderNodes_singleton, renderNode] at h
    obtain ⟨inner, -, h⟩ := bind_eq_ok h
    have hsome : (fillNodes (texts values) children).isEmpty = false := by
      cases children with
      | nil => cases hchildren
      | cons child children =>
        rw [List.isEmpty_eq_false_iff, Ne, fillNodes_eq_nil (by simpa [texts] using hvalues)]
        exact List.cons_ne_nil child children
    rw [hsome, if_neg Bool.false_ne_true] at h
    -- the body has a slot, which shows the filled children
    obtain ⟨shown, hshown, hle⟩ := length_le_of_slot hbody h
    have hcount := length_le_fillNodes hvalues children hshown
    have hpos : 0 < children.countP shows := by
      rw [nodesShow_eq_any, List.any_eq_true] at hchildren
      exact List.countP_pos_iff.2 hchildren
    have hmul := Nat.le_mul_of_pos_left (values.flatMap String.toList).length hpos
    exact Nat.le_trans hmul (Nat.le_trans hcount hle)
  | .slot fallback, text, _, h => by
    rw [fillNode, renderNodes_texts] at h
    cases h
    exact Nat.le_refl _

/-- Filled nodes show what they are filled with at every slot and at every place where a slot is
forwarded. -/
theorem length_le_fillNodes {values : List String} (hvalues : values ≠ []) :
    (nodes : List Node) → ∀ {text : List Char},
      renderNodes component scope none (fillNodes (texts values) nodes) = .ok text →
        nodes.countP shows * (values.flatMap String.toList).length ≤ text.length
  | [], text, _ => by simp
  | node :: nodes, text, h => by
    rw [fillNodes, renderNodes_append] at h
    obtain ⟨first, hfirst, h⟩ := bind_eq_ok h
    obtain ⟨rest, hrest, h⟩ := bind_eq_ok h
    cases h
    have hnodes := length_le_fillNodes hvalues nodes hrest
    rw [List.length_append]
    by_cases hshows : shows node = true
    · have hnode := length_le_fillNode hvalues node hshows hfirst
      rw [List.countP_cons_of_pos hshows, Nat.add_mul]
      omega
    · rw [List.countP_cons_of_neg hshows]
      exact Nat.le_add_left_of_le hnodes

end

/-- A node that forwards a slot is no slot itself, so it counts on top of the slots. -/
theorem countP_isSlot_lt {nodes : List Node} (h : nodes.any nodeForwards = true) :
    nodes.countP isSlot < nodes.countP shows := by
  induction nodes with
  | nil => cases h
  | cons node nodes ih =>
    have hle : nodes.countP isSlot ≤ nodes.countP shows :=
      List.countP_mono_left fun node _ hslot => by rw [shows, hslot, Bool.true_or]
    rw [List.countP_cons, List.countP_cons]
    cases hforwards : nodeForwards node with
    | true =>
      have hslot : isSlot node = false := by
        cases node with
        | slot fallback => cases hforwards
        | _ => rfl
      simp only [shows, hslot, hforwards, Bool.false_or, Bool.false_eq_true, if_true, if_false]
      omega
    | false =>
      have hlt : nodes.countP isSlot < nodes.countP shows := ih (by simpa [hforwards] using h)
      rw [shows, hforwards, Bool.or_false]
      omega

/-- Long text that a template forwards is rendered to less than what it is replaced by. -/
theorem exists_fillNodes_ne {nodes : List Node} {values : List String} {text : List Char}
    (hforwards : nodes.any nodeForwards = true)
    (h : renderNodes component scope none (nodes.flatMap (fillSlot (texts values))) = .ok text) :
    ∃ value, renderNodes component scope none (nodes.flatMap (fillSlot (texts [value]))) ≠
      renderNodes component scope none (fillNodes (texts [value]) nodes) := by
  rw [← renderNodes_fillSlot] at h
  obtain ⟨own, hown⟩ := length_renderNodes h
  -- text that is longer than all that is shown besides
  refine ⟨String.ofList (List.replicate (own + 1) 'x'), fun heq => ?_⟩
  rw [← renderNodes_fillSlot, List.flatMap_singleton, String.toList_ofList] at heq
  obtain ⟨text', htext', hlength⟩ := hown (List.replicate (own + 1) 'x')
  rw [htext'] at heq
  have hle := length_le_fillNodes (List.cons_ne_nil _ _) nodes heq.symm
  rw [hlength, List.flatMap_singleton, String.toList_ofList, List.length_replicate] at hle
  have hlt := Nat.mul_le_mul_right (own + 1) (countP_isSlot_lt hforwards)
  rw [Nat.succ_mul] at hlt
  omega

/-! ## Slots and substitution -/

/-- **Slots mean substitution, except where they are forwarded.** A component that is given plain
text is rendered like its template, in its own scope, with

* each slot replaced by the text, if slots among children are left alone;
* every slot replaced by the text, if no used component shows a slot among its children.

The condition cannot be spared: if a component that can be rendered forwards a slot, some text that
it is given is rendered differently from its template with every slot replaced. -/
theorem slot_substitution (component : String) (scope : Fields) (content : SlotContent)
    (w : Instance) (attributes : List (String × Binding)) :
    (∀ values, values ≠ [] →
      renderNode component scope content (w.use attributes (texts values)) =
        renderWithin component scope w attributes (w.nodes.flatMap (fillSlot (texts values)))) ∧
    (w.nodes.any nodeForwards = false → ∀ values, values ≠ [] →
      renderNode component scope content (w.use attributes (texts values)) =
        renderWithin component scope w attributes (fillNodes (texts values) w.nodes)) ∧
    (w.nodes.any nodeForwards = true → ∀ values text, values ≠ [] →
      renderNode component scope content (w.use attributes (texts values)) = .ok text →
        ∃ values', values' ≠ [] ∧
          renderNode component scope content (w.use attributes (texts values')) ≠
            renderWithin component scope w attributes (fillNodes (texts values') w.nodes)) := by
  refine ⟨fun values hvalues => renderNode_use_texts w attributes hvalues,
    fun hforwards values hvalues => ?_, fun hforwards values text hvalues htext => ?_⟩
  · rw [renderNode_use_texts w attributes hvalues, renderWithin, renderWithin]
    refine bind_congr fun inner => ?_
    exact (renderNodes_fillNodes (by simpa [texts] using hvalues) hforwards).symm
  · rw [renderNode_use_texts w attributes hvalues, renderWithin] at htext
    obtain ⟨inner, hinner, htext⟩ := bind_eq_ok htext
    obtain ⟨value, hne⟩ := exists_fillNodes_ne hforwards htext
    refine ⟨[value], List.cons_ne_nil _ _, fun heq => hne ?_⟩
    rw [renderNode_use_texts w attributes (List.cons_ne_nil _ _), renderWithin, renderWithin,
      hinner] at heq
    exact heq

/-- A component that shows what it is given in italics. -/
def inner : Instance := ⟨"Inner", [], [.text "<i>", .slot [.text "none"], .text "</i>"]⟩

/-- A component that hands on what it is given. -/
def outer : Instance := ⟨"Outer", [], [inner.use [] [.slot []]]⟩

/-- What `inner` is given stands in the place of its slot, and of all that `outer` is given nothing
does. -/
theorem slot_substitution_inner :
    renderNode "Page" [] none (inner.use [] (texts ["Go"])) =
        renderWithin "Page" [] inner [] (fillNodes (texts ["Go"]) inner.nodes) ∧
      renderWithin "Page" [] inner [] (fillNodes (texts ["Go"]) inner.nodes) =
        .ok "<i>Go</i>".toList ∧
      outer.nodes.any nodeForwards = true ∧
      ∃ values, values ≠ [] ∧ renderNode "Page" [] none (outer.use [] (texts values)) ≠
        renderWithin "Page" [] outer [] (fillNodes (texts values) outer.nodes) := by
  have hkept : inner.nodes.any nodeForwards = false := by decide
  have hforwarded : outer.nodes.any nodeForwards = true := by decide
  have htext : renderNode "Page" [] none (outer.use [] (texts ["Go"])) = .ok "<i></i>".toList := by
    rfl
  have hvalues : ["Go"] ≠ [] := List.cons_ne_nil _ _
  exact ⟨(slot_substitution "Page" [] none inner []).2.1 hkept ["Go"] hvalues, rfl, hforwarded,
    (slot_substitution "Page" [] none outer []).2.2 hforwarded ["Go"] _ hvalues htext⟩

/-- A slot is not always replaced by what is given: `outer` hands on its slot to `inner`, which then
shows nothing. -/
theorem forwarded_slot_is_dropped :
    ¬ ∀ (component : String) (scope : Fields) (content : SlotContent) (w : Instance)
        (attributes : List (String × Binding)) (values : List String), values ≠ [] →
        renderNode component scope content (w.use attributes (texts values)) =
          renderWithin component scope w attributes (fillNodes (texts values) w.nodes) := by
  intro h
  have hshown : renderNode "Page" [] none (outer.use [] (texts ["Go"])) = .ok "<i></i>".toList := by
    rfl
  have hfilled : renderWithin "Page" [] outer [] (fillNodes (texts ["Go"]) outer.nodes) =
      .ok "<i>Go</i>".toList := by
    rfl
  have heq := h "Page" [] none outer [] ["Go"] (List.cons_ne_nil _ _)
  rw [hshown, hfilled] at heq
  exact absurd (Except.ok.inj heq) (by decide)

end StaticSite.Template
