import Mathlib.Tactic.SplitIfs
import StaticSite.Proofs.Success
import StaticSite.Template.Render

/-!
# Where the markup of a rendered text comes from

Angle brackets and quotes are the *marks* of a text. A shown value has none, because it goes through
`escape` whatever it is, so the marks of a rendered text are those of the text in the template and in
the templates that it uses. `nodesMarks` reads them off the node tree, where no data are.

What a slot shows is rendered elsewhere, with other data; `Shows` is what is known of it.
-/

namespace StaticSite.Template

/-! ## Marks -/

/-- A character that means something to markup. -/
def isMark (c : Char) : Bool := c = '<' || c = '>' || c = '\x22' || c = '\x27'

/-- The angle brackets and quotes of a text, in order. -/
def marks (s : List Char) : List Char := s.filter isMark

theorem marks_append (s t : List Char) : marks (s ++ t) = marks s ++ marks t :=
  List.filter_append ..

theorem marks_escapeChar (c : Char) : marks (escapeChar c) = [] := by
  rw [escapeChar]
  split_ifs with hamp hlt hgt hdouble hsingle
  case neg => simp [marks, isMark, hlt, hgt, hdouble, hsingle]
  all_goals decide

/-- A shown value has no marks. -/
theorem marks_escape (s : List Char) : marks (escape s) = [] := by
  induction s with
  | nil => rfl
  | cons c s ih =>
    rw [escape, List.flatMap_cons, marks_append, marks_escapeChar, List.nil_append]
    exact ih

/-! ## Marks of templates -/

mutual

/-- The marks of a node where slots show something with these marks, or fall back. -/
def nodeMarks (given : Option (List Char)) : Node → List Char
  | .text value => marks value.toList
  | .expression _ => []
  | .component _ _ body _ children =>
    nodesMarks (if children.isEmpty then none else some (nodesMarks none children)) body
  | .slot fallback =>
    match given with
    | some shown => shown
    | none => nodesMarks none fallback

/-- The marks of nodes, one after the other. -/
def nodesMarks (given : Option (List Char)) : List Node → List Char
  | [] => []
  | node :: nodes => nodeMarks given node ++ nodesMarks given nodes

end

/-! ## Marks of rendered texts -/

/-- What slots show has these marks, unless rendering it failed. -/
inductive Shows : SlotContent → Option (List Char) → Prop where
  /-- nothing is given to the slots -/
  | fallback : Shows none none
  /-- something is given, with its marks -/
  | text {rendered : Except RenderError (List Char)} {shown : List Char}
      (marks_eq : ∀ s, rendered = .ok s → marks s = shown) : Shows (some rendered) (some shown)

mutual

/-- A rendered node has the marks of the node. -/
theorem marks_renderNode {component : String} {scope : Fields} {content : SlotContent}
    {given : Option (List Char)} (hshows : Shows content given) :
    (node : Node) → ∀ {s : List Char}, renderNode component scope content node = .ok s →
      marks s = nodeMarks given node
  | .text value, s, h => by
    rw [renderNode] at h
    cases h
    rw [nodeMarks]
  | .expression source, s, h => by
    rw [renderNode] at h
    obtain ⟨value, -, hs⟩ := bind_eq_ok h
    cases hs
    exact marks_escape _
  | .component name defaults body attributes children, s, h => by
    rw [renderNode] at h
    obtain ⟨inner, -, hs⟩ := bind_eq_ok h
    rw [nodeMarks]
    refine marks_renderNodes ?_ body hs
    -- slots among the children are not those of `body`, and fall back
    split
    · exact .fallback
    · exact .text fun text htext => marks_renderNodes .fallback children htext
  | .slot fallback, s, h => by
    cases hshows with
    | fallback =>
      rw [renderNode] at h
      rw [nodeMarks]
      exact marks_renderNodes .fallback fallback h
    | text marks_eq =>
      rw [renderNode] at h
      rw [nodeMarks]
      exact marks_eq s h

/-- Rendered nodes have the marks of the nodes. -/
theorem marks_renderNodes {component : String} {scope : Fields} {content : SlotContent}
    {given : Option (List Char)} (hshows : Shows content given) :
    (nodes : List Node) → ∀ {s : List Char}, renderNodes component scope content nodes = .ok s →
      marks s = nodesMarks given nodes
  | [], s, h => by
    rw [renderNodes] at h
    cases h
    rfl
  | node :: nodes, s, h => by
    rw [renderNodes] at h
    obtain ⟨first, hfirst, h⟩ := bind_eq_ok h
    obtain ⟨rest, hrest, h⟩ := bind_eq_ok h
    cases h
    rw [marks_append, nodesMarks, marks_renderNode hshows node hfirst,
      marks_renderNodes hshows nodes hrest]

end

/-- An instance is rendered in one scope, with nothing given to its slots. -/
theorem render_eq_ok {i : Instance} {d : Data} {s : String} (h : render i d = .ok s) :
    ∃ scope text, renderNodes i.name scope none i.nodes = .ok text ∧ s = String.ofList text := by
  unfold render at h
  dsimp only at h
  split at h
  case h_3 =>
    obtain ⟨_, hthrow, -⟩ := bind_eq_ok h
    cases hthrow
  all_goals
    obtain ⟨scope, -, h⟩ := bind_eq_ok h
    obtain ⟨text, htext, h⟩ := bind_eq_ok h
    cases h
    exact ⟨scope, text, htext, rfl⟩

/-- A rendered instance has the marks of its template. -/
theorem marks_render {i : Instance} {d : Data} {s : String} (h : render i d = .ok s) :
    marks s.toList = nodesMarks none i.nodes := by
  obtain ⟨scope, text, htext, rfl⟩ := render_eq_ok h
  rw [String.toList_ofList]
  exact marks_renderNodes .fallback i.nodes htext

/-- **Data bring no markup.** Whatever an instance is rendered with, the text has the same angle
brackets and quotes in the same order, and they are those of the text in its templates: no data, no
attribute and no data of a component have a part in them. -/
theorem marks_render_eq (i : Instance) (d₁ d₂ : Data) (s₁ s₂ : String)
    (h₁ : render i d₁ = .ok s₁) (h₂ : render i d₂ = .ok s₂) :
    marks s₁.toList = marks s₂.toList ∧ marks s₁.toList = nodesMarks none i.nodes :=
  ⟨(marks_render h₁).trans (marks_render h₂).symm, marks_render h₁⟩

/-- A component with a title of its own, which shows what it is given in a slot. -/
def card : Instance where
  name := "Card"
  defaults := [("title", .text "\"none\"")]
  nodes := [.text "<b class='", .expression "title", .text "'>", .slot [.text "<br>"], .text "</b>"]

/-- A page with two cards, the first with its title and what it shows from the data of the page. -/
def cards : Instance where
  name := "Cards"
  defaults := []
  nodes := [card.use [("title", .expression "who")] [.text "<i>", .expression "who", .text "</i>"],
    card.use [] []]

/-- A text and a list bring different characters into the cards, but the same marks. -/
theorem marks_render_cards : ∃ s₁ s₂, render cards (.object [("who", .text "'")]) = .ok s₁ ∧
    render cards (.object [("who", .list [.text "<b>", .null])]) = .ok s₂ ∧ s₁ ≠ s₂ ∧
      marks s₁.toList = marks s₂.toList ∧ marks s₁.toList = nodesMarks none cards.nodes := by
  have h₁ : render cards (.object [("who", .text "'")]) = .ok
      "<b class='&#39;'><i>&#39;</i></b><b class='&quot;none&quot;'><br></b>" := by
    decide +kernel
  have h₂ : render cards (.object [("who", .list [.text "<b>", .null])]) = .ok
      ("<b class='[&quot;&lt;b&gt;&quot;,null]'><i>[&quot;&lt;b&gt;&quot;,null]</i></b>" ++
        "<b class='&quot;none&quot;'><br></b>") := by
    decide +kernel
  exact ⟨_, _, h₁, h₂, by decide, marks_render_eq cards _ _ _ _ h₁ h₂⟩

end StaticSite.Template
