import StaticSite.Proofs.OpeningTags
import StaticSite.Proofs.Preamble
import StaticSite.Proofs.Printing
import StaticSite.Proofs.TagsInUse

/-!
# Printed node trees

A node tree can be printed as a template: text as it is, an expression between double braces, uses
and slots as elements. `Prints` says of which trees and how. Compiling the printed form gives the tree
back (`compile_prints`).

The compiler has only some of the nodes it has read; text and expressions behind the last special tag
are still pending as text. `Holds` says that a builder stands for some nodes all the same, and
`adds_prints` that reading the printed form of further nodes puts these behind them and leaves the
open elements alone.
-/

namespace StaticSite

open Text Markup

/-- Whether a node is text. -/
def Node.isText : Node → Bool
  | .text _ => true
  | .expression _ | .component .. | .slot _ => false

namespace Template

/-! ## The printed form -/

/-- An attribute as it is printed, with a space in front. -/
def printAttribute : String × Binding → List Char
  | (name, .literal value) =>
    ' ' :: name.toList ++ '=' :: '\x22' :: value.toList ++ ['\x22']
  | (name, .expression source) =>
    ' ' :: ':' :: name.toList ++ '=' :: '\x22' :: source.toList ++ ['\x22']
  | (name, .flag) => ' ' :: name.toList

/-- Attributes as they are printed. -/
def printAttributes (attributes : List (String × Binding)) : List Char :=
  attributes.flatMap printAttribute

/-- Whether an attribute can be printed: its name is one, a literal is not named like an expression,
and there is no double quote inside the quotes. -/
def CanPrint : String × Binding → Prop
  | (name, .literal value) =>
    IsAttributeName name.toList ∧ name.toList.head? ≠ some ':' ∧ '\x22' ∉ value.toList
  | (name, .expression source) => IsAttributeName name.toList ∧ '\x22' ∉ source.toList
  | (name, .flag) => IsAttributeName name.toList

/-- Text and expressions as they are printed. -/
def printPlain : Node → List Char
  | .text value => value.toList
  | .expression source => '\x7b' :: '\x7b' :: ' ' :: source.toList ++ [' ', '\x7d', '\x7d']
  | .component .. | .slot _ => []

/-- Whether a node is text or an expression that can be printed: text is not empty and has no `<` and
no opening brace; an expression is trimmed and has no `<` and no closing brace. -/
def IsPlain : Node → Prop
  | .text value => value.toList ≠ [] ∧ '<' ∉ value.toList ∧ '\x7b' ∉ value.toList
  | .expression source =>
    trim source.toList = source.toList ∧ '<' ∉ source.toList ∧ '\x7d' ∉ source.toList
  | .component .. | .slot _ => False

/-- Two nodes that can stand side by side: one of them is no text. -/
def Apart (first second : Node) : Prop := ¬(first.isText = true ∧ second.isText = true)

/-- How a list of nodes is printed, if it can be: no two texts stand side by side, and the components
used are at hand. -/
inductive Prints (dependencies : Dependencies) : List Node → List Char → Prop where
  /-- no nodes -/
  | nil : Prints dependencies [] []
  /-- text or an expression -/
  | plain {node : Node} {nodes : List Node} {rest : List Char} (hplain : IsPlain node)
      (hapart : ∀ next, nodes.head? = some next → Apart node next)
      (hrest : Prints dependencies nodes rest) :
      Prints dependencies (node :: nodes) (printPlain node ++ rest)
  /-- a use with children -/
  | use {tag : String} {used : Instance} {attributes : List (String × Binding)}
      {children nodes : List Node} {inside rest : List Char}
      (hused : dependencies.get? tag = some used) (hattributes : ∀ a ∈ attributes, CanPrint a)
      (hne : children ≠ []) (hchildren : Prints dependencies children inside)
      (hrest : Prints dependencies nodes rest) :
      Prints dependencies (used.use attributes children :: nodes)
        ('<' :: tag.toList ++ printAttributes attributes ++ '>' :: inside ++
          '<' :: '/' :: tag.toList ++ '>' :: rest)
  /-- a use without children -/
  | emptyUse {tag : String} {used : Instance} {attributes : List (String × Binding)}
      {nodes : List Node} {rest : List Char} (hused : dependencies.get? tag = some used)
      (hattributes : ∀ a ∈ attributes, CanPrint a) (hrest : Prints dependencies nodes rest) :
      Prints dependencies (used.use attributes [] :: nodes)
        ('<' :: tag.toList ++ printAttributes attributes ++ '/' :: '>' :: rest)
  /-- a slot with a fallback -/
  | slot {children nodes : List Node} {inside rest : List Char} (hne : children ≠ [])
      (hchildren : Prints dependencies children inside) (hrest : Prints dependencies nodes rest) :
      Prints dependencies (.slot children :: nodes)
        ("<slot>".toList ++ inside ++ "</slot>".toList ++ rest)
  /-- a slot without one -/
  | emptySlot {nodes : List Node} {rest : List Char} (hrest : Prints dependencies nodes rest) :
      Prints dependencies (.slot [] :: nodes) ("<slot/>".toList ++ rest)

variable {dependencies : Dependencies} {component : String}

/-! ## Attributes -/

/-- The attribute that is read from a printed one. -/
def attributeOf : String × Binding → Attribute
  | (name, .literal value) => ⟨name, some value⟩
  | (name, .expression source) => ⟨String.ofList (':' :: name.toList), some source⟩
  | (name, .flag) => ⟨name, none⟩

theorem bindingOf_attributeOf {a : String × Binding} (h : CanPrint a) :
    bindingOf (attributeOf a) = a := by
  obtain ⟨name, binding⟩ := a
  cases binding with
  | literal value =>
    obtain ⟨-, hcolon, -⟩ := h
    rw [attributeOf, bindingOf]
    split
    · next hname _ =>
      rw [hname] at hcolon
      exact absurd rfl hcolon
    · next hvalue _ =>
      cases hvalue
      rfl
    · next hvalue => cases hvalue
  | expression source => simp [attributeOf, bindingOf]
  | flag => simp [attributeOf, bindingOf]

/-- Printed attributes continue an opening tag up to its end. -/
theorem continues_printAttributes {attributes : List (String × Binding)}
    (h : ∀ a ∈ attributes, CanPrint a) {selfClosing : Bool} {rest : List Char}
    (hrest : Continues [] selfClosing rest) :
    Continues (attributes.map attributeOf) selfClosing (printAttributes attributes ++ rest) := by
  induction attributes with
  | nil => exact hrest
  | cons a attributes ih =>
    have ha := h a List.mem_cons_self
    have hmore := ih fun b hb => h b (List.mem_cons_of_mem _ hb)
    have hspace : Blanks [' '] := by simp [Blanks, isMarkupBlank]
    have hne := List.cons_ne_nil ' ' []
    obtain ⟨name, binding⟩ := a
    cases binding with
    | literal value =>
      obtain ⟨hname, -, hvalue⟩ := ha
      have := Continues.quoted hspace hne hname blanks_nil blanks_nil (.inl rfl) hvalue hmore
      simpa [printAttributes, printAttribute, attributeOf] using this
    | expression source =>
      obtain ⟨hname, hvalue⟩ := ha
      have hname' : IsAttributeName (String.ofList (':' :: name.toList)).toList := by
        rw [String.toList_ofList]
        refine ⟨List.cons_ne_nil _ _, fun c hc => ?_⟩
        rcases List.mem_cons.1 hc with rfl | hc
        · decide
        · exact hname.2 c hc
      have := Continues.quoted hspace hne hname' blanks_nil blanks_nil (.inl rfl) hvalue hmore
      simpa [printAttributes, printAttribute, attributeOf] using this
    | flag =>
      have := Continues.flag hspace hne ha hmore
      simpa [printAttributes, printAttribute, attributeOf] using this

/-! ## Pending text -/

theorem trim_append {before after : List Char} (hbefore : ∀ c ∈ before, isBlank c = true)
    (hafter : ∀ c ∈ after, isBlank c = true) (s : List Char) :
    trim (before ++ s ++ after) = trim s := by
  have hstart : trimStart (before ++ s ++ after) = trimStart (s ++ after) := by
    rw [List.append_assoc]
    exact List.dropWhile_append_of_pos hbefore
  have hend (t : List Char) : trimEnd (t ++ after) = trimEnd t := by
    rw [trimEnd, List.reverse_append,
      List.dropWhile_append_of_pos fun c hc => hafter c (List.mem_reverse.1 hc), ← trimEnd]
  rw [trim, hstart, Exports.trimStart_append]
  split
  · next hnone =>
    rw [trim, hnone, trimStart, List.dropWhile_eq_nil_iff.2 hafter]
  · rw [hend, trim]

/-- Text up to a printed expression, and the expression, are taken off the front. -/
theorem splitText_expression {before : List Char} (hbefore : '\x7b' ∉ before) {source : String}
    (hsource : IsPlain (.expression source)) (offset : Nat) {rest : List Char} {more : List Node}
    (hrest : ∀ offset, splitText offset rest = .ok more) :
    splitText offset (before ++ (printPlain (.expression source) ++ rest)) =
      .ok (textNode before ++ .expression source :: more) := by
  obtain ⟨htrim, -, hbrace⟩ := hsource
  have hpadded : '\x7d' ∉ [' '] ++ source.toList ++ [' '] := by simpa using hbrace
  have hs : before ++ (printPlain (.expression source) ++ rest) =
      before ++ '\x7b' :: '\x7b' :: ([' '] ++ source.toList ++ [' '] ++ '\x7d' :: '\x7d' :: rest) := by
    simp [printPlain]
  have hopen := cut?_of_notMem hbefore ['\x7b']
    ([' '] ++ source.toList ++ [' '] ++ '\x7d' :: '\x7d' :: rest)
  have hclose := cut?_of_notMem hpadded ['\x7d'] rest
  rw [hs, splitText]
  split
  · next ho => cases hopen.symm.trans ho
  · next ho =>
    cases hopen.symm.trans ho
    split
    · next hc => cases hclose.symm.trans hc
    · next hc =>
      cases hclose.symm.trans hc
      have hblank : ∀ c ∈ [' '], isBlank c = true := by simp [isBlank]
      rw [trim_append hblank hblank, htrim, String.ofList_toList]
      dsimp only
      rw [hrest]

/-- Printed text and expressions are split into themselves. -/
theorem splitText_plain : ∀ {plain : List Node}, (∀ n ∈ plain, IsPlain n) → plain.IsChain Apart →
    ∀ offset, splitText offset (plain.flatMap printPlain) = .ok plain
  | [], _, _, offset => by
    rw [List.flatMap_nil, splitText]
    rfl
  | .expression source :: plain, hplain, hapart, offset => by
    have hrest := splitText_plain (fun n hn => hplain n (List.mem_cons_of_mem _ hn)) hapart.tail
    exact splitText_expression List.not_mem_nil (hplain _ List.mem_cons_self) offset hrest
  | [.text value], hplain, _, offset => by
    obtain ⟨hne, -, hbrace⟩ := hplain _ List.mem_cons_self
    have hnone := cut?_eq_none hbrace ['\x7b']
    rw [List.flatMap_singleton, printPlain, splitText]
    split
    · rw [textNode, if_neg hne, String.ofList_toList]
    · next ho => cases hnone.symm.trans ho
  | .text value :: .expression source :: plain, hplain, hapart, offset => by
    have hrest := splitText_plain (fun n hn =>
      hplain n (List.mem_cons_of_mem _ (List.mem_cons_of_mem _ hn))) hapart.tail.tail
    obtain ⟨hne, -, hbrace⟩ := hplain _ List.mem_cons_self
    rw [List.flatMap_cons, List.flatMap_cons, printPlain, splitText_expression hbrace
      (hplain _ (List.mem_cons_of_mem _ List.mem_cons_self)) offset hrest, textNode, if_neg hne,
      String.ofList_toList]
    rfl
  | .text _ :: .text _ :: _, _, hapart, _ => by
    exact absurd ⟨rfl, rfl⟩ (List.isChain_cons_cons.1 hapart).1
  | .component .. :: _, hplain, _, _ => (hplain _ List.mem_cons_self).elim
  | .slot _ :: _, hplain, _, _ => (hplain _ List.mem_cons_self).elim
  | .text _ :: .component .. :: _, hplain, _, _ =>
    (hplain _ (List.mem_cons_of_mem _ List.mem_cons_self)).elim
  | .text _ :: .slot _ :: _, hplain, _, _ =>
    (hplain _ (List.mem_cons_of_mem _ List.mem_cons_self)).elim

theorem notMem_printPlain {n : Node} (h : IsPlain n) : '<' ∉ printPlain n := by
  cases n with
  | text value => exact h.2.1
  | expression source => simpa [printPlain] using h.2.1
  | component | slot => exact h.elim

/-! ## What a builder stands for -/

/-- What a builder has read of the element it is in: finished nodes, and others whose printed form is
pending. -/
def Holds (b : Builder) (nodes : List Node) : Prop :=
  ∃ plain, nodes = b.nodes ++ plain ∧ b.pending.reverse = plain.flatMap printPlain ∧
    (∀ n ∈ plain, IsPlain n) ∧ plain.IsChain Apart

theorem holds_flushed (nodes : List Node) (opened : List OpenElement) :
    Holds ⟨[], nodes, opened⟩ nodes :=
  ⟨[], (List.append_nil nodes).symm, rfl, fun _ hn => absurd hn List.not_mem_nil, .nil⟩

/-- Flushing finishes all nodes. -/
theorem flush_of_holds {b : Builder} {nodes : List Node} (h : Holds b nodes) (component : String) :
    b.flush component = .ok ⟨[], nodes, b.opened⟩ := by
  obtain ⟨plain, rfl, hpending, hplain, hapart⟩ := h
  rw [Builder.flush, hpending, splitText_plain hplain hapart]

/-- A node that is printed without a tag is put behind the others when its text is. -/
theorem Holds.push {b : Builder} {nodes : List Node} {node : Node} (h : Holds b nodes)
    (hnode : IsPlain node) (hapart : ∀ last, nodes.getLast? = some last → Apart last node) :
    Holds (b.push (printPlain node)) (nodes ++ [node]) := by
  obtain ⟨plain, rfl, hpending, hplain, hchain⟩ := h
  refine ⟨plain ++ [node], List.append_assoc .., ?_, ?_, ?_⟩
  · rw [Builder.push, List.reverse_append, List.reverse_reverse, hpending, List.flatMap_append,
      List.flatMap_singleton]
  · intro n hn
    rcases List.mem_append.1 hn with hn | hn
    · exact hplain n hn
    · rwa [List.mem_singleton.1 hn]
  · refine List.isChain_append.2 ⟨hchain, List.isChain_singleton _, fun last hlast next hnext => ?_⟩
    cases hnext
    exact hapart last (by rw [List.getLast?_append, hlast, Option.some_or])

theorem build_text {s : List Char} (h : '<' ∉ s) (b : Builder) (rest : List Char) :
    build component dependencies b (s ++ rest) = build component dependencies (b.push s) rest := by
  induction s generalizing b with
  | nil => rfl
  | cons c s ih =>
    rw [List.mem_cons, not_or] at h
    rw [List.cons_append, build_cons, if_pos (Ne.symm h.1), ih h.2, Builder.push, Builder.push,
      Builder.push]
    simp

/-- A special opening tag that is written out is entered. -/
theorem build_opening {tag : OpeningTag} {s : List Char} (h : tag.Written s)
    (hspecial : isSpecial dependencies tag.name = true) {b b' : Builder}
    (henter : b.enter component dependencies tag = .ok b') (rest : List Char) :
    build component dependencies b (s ++ rest) = build component dependencies b' rest := by
  have hread := readOpeningTag_written h rest
  obtain ⟨c, t, rfl, hmark, hslash⟩ := h.exists_cons
  rw [List.cons_append, List.cons_append] at hread ⊢
  rw [build_cons, if_neg (not_not_intro rfl), startsWith?_comment hmark, if_neg (by simp),
    if_neg (by simpa using hslash), hread]
  dsimp only
  rw [if_pos hspecial, henter]

theorem not_isBlank_of_isTagChar {c : Char} (h : isTagChar c = true) : isBlank c = false := by
  simp only [isTagChar, isNameChar, Bool.or_eq_true, beq_iff_eq] at h
  rcases h with (((h | rfl) | rfl) | rfl) | rfl
  · exact (Literal.not_isBlank_of_isAlphanum h).1
  all_goals decide

theorem trim_of_forall {s : List Char} (h : ∀ c ∈ s, isBlank c = false) : trim s = s := by
  have hkept {t : List Char} (ht : ∀ c ∈ t, isBlank c = false) : t.dropWhile isBlank = t := by
    cases t with
    | nil => rfl
    | cons c t => rw [List.dropWhile_cons_of_neg (by simp [ht c List.mem_cons_self])]
  rw [trim, trimStart, hkept h, trimEnd, hkept fun c hc => h c (List.mem_reverse.1 hc),
    List.reverse_reverse]

/-- A special closing tag is left. -/
theorem build_closing {tag : String} (htag : IsTagName tag.toList)
    (hspecial : isSpecial dependencies tag = true) {b b' : Builder}
    (hleave : b.leave component tag = .ok b') (rest : List Char) :
    build component dependencies b ('<' :: '/' :: tag.toList ++ '>' :: rest) =
      build component dependencies b' rest := by
  have hchars := htag.isTagChar
  have hend : '>' ∉ tag.toList := fun h => absurd (hchars _ h) (by decide)
  have htrim : trim tag.toList = tag.toList :=
    trim_of_forall fun c hc => not_isBlank_of_isTagChar (hchars c hc)
  have hclose : closingTag? dependencies ('<' :: '/' :: (tag.toList ++ '>' :: rest)) =
      some (tag, rest) := by
    refine closingTag?_eq_some.2 ⟨tag.toList, ?_, by rw [htrim, String.ofList_toList], hspecial⟩
    exact cut?_of_notMem hend [] rest
  rw [List.cons_append, List.cons_append, build_cons, if_neg (not_not_intro rfl),
    startsWith?_comment (by decide), if_neg (by simp), List.head?_cons, if_pos rfl,
    hclose]
  dsimp only
  rw [hleave]

/-! ## Reading nodes -/

/-- A text adds nodes to those in front of it: a builder that holds these has read the new ones as
well behind the text, and has the same elements open. -/
def Adds (component : String) (dependencies : Dependencies) (before nodes : List Node)
    (s : List Char) : Prop :=
  ∀ b rest, Holds b before → ∃ b',
    build component dependencies b (s ++ rest) = build component dependencies b' rest ∧
      Holds b' (before ++ nodes) ∧ b'.opened = b.opened

variable {b : Builder} {before nodes more : List Node} {s t : List Char}
  {attributes : List (String × Binding)} {tag : String}

theorem adds_nil : Adds component dependencies before [] [] :=
  fun b _ hb => ⟨b, rfl, by rwa [List.append_nil], rfl⟩

theorem Adds.append (hs : Adds component dependencies before nodes s)
    (ht : Adds component dependencies (before ++ nodes) more t) :
    Adds component dependencies before (nodes ++ more) (s ++ t) := by
  intro b rest hb
  obtain ⟨b₁, hbuild₁, hheld₁, hopened₁⟩ := hs b (t ++ rest) hb
  obtain ⟨b₂, hbuild₂, hheld₂, hopened₂⟩ := ht b₁ rest hheld₁
  refine ⟨b₂, ?_, ?_, hopened₂.trans hopened₁⟩
  · rw [List.append_assoc, hbuild₁, hbuild₂]
  · rwa [← List.append_assoc]

/-- Text and expressions are added where they stand apart from what is in front. -/
theorem adds_plain {node : Node} (hnode : IsPlain node)
    (hapart : ∀ last, before.getLast? = some last → Apart last node) :
    Adds component dependencies before [node] (printPlain node) :=
  fun b rest hb => ⟨_, build_text (notMem_printPlain hnode) b rest, hb.push hnode hapart, rfl⟩

/-- The opening tag of an element as it is printed. -/
theorem written_element (htag : IsTagName tag.toList)
    (hattributes : ∀ a ∈ attributes, CanPrint a) {selfClosing : Bool}
    (hs : Continues [] selfClosing s) :
    (⟨tag, attributes.map attributeOf, selfClosing⟩ : OpeningTag).Written
      ('<' :: tag.toList ++ printAttributes attributes ++ s) :=
  ⟨htag, _, continues_printAttributes hattributes hs, List.append_assoc ..⟩

theorem map_bindingOf (hattributes : ∀ a ∈ attributes, CanPrint a) :
    (attributes.map attributeOf).map bindingOf = attributes := by
  rw [List.map_map]
  exact (List.map_congr_left fun a ha => bindingOf_attributeOf (hattributes a ha)).trans
    (List.map_id attributes)

theorem enter_of_holds (component : String) (dependencies : Dependencies) (hb : Holds b before)
    (tag : OpeningTag) :
    b.enter component dependencies tag = .ok (
      if tag.selfClosing then
        ⟨[], before ++ [elementNode (dependencies.get? tag.name) (tag.attributes.map bindingOf) []],
          b.opened⟩
      else
        ⟨[], [], ⟨tag.name, dependencies.get? tag.name, tag.attributes.map bindingOf, before⟩ ::
          b.opened⟩) := by
  rw [Builder.enter, flush_of_holds hb]
  cases tag.selfClosing <;> rfl

/-- An element is added once its children are, to no nodes in front of them. -/
theorem adds_element (before : List Node) (htag : IsTagName tag.toList)
    (hspecial : isSpecial dependencies tag = true) (hattributes : ∀ a ∈ attributes, CanPrint a)
    {children : List Node} {inside : List Char}
    (hchildren : Adds component dependencies [] children inside) :
    Adds component dependencies before [elementNode (dependencies.get? tag) attributes children]
      ('<' :: tag.toList ++ printAttributes attributes ++ '>' :: inside ++
        '<' :: '/' :: tag.toList ++ ['>']) := by
  intro b rest hb
  have hwritten := written_element htag hattributes (.close blanks_nil)
  have henter := enter_of_holds component dependencies hb
    ⟨tag, attributes.map attributeOf, false⟩
  rw [if_neg Bool.false_ne_true, map_bindingOf hattributes] at henter
  obtain ⟨b₁, hinside, hheld, hopened⟩ := hchildren _ ('<' :: '/' :: tag.toList ++ '>' :: rest)
    (holds_flushed [] (⟨tag, dependencies.get? tag, attributes, before⟩ :: b.opened))
  have hleave : b₁.leave component tag = .ok
      ⟨[], before ++ [elementNode (dependencies.get? tag) attributes children], b.opened⟩ := by
    rw [Builder.leave, flush_of_holds hheld, hopened]
    exact if_pos rfl
  have hopen := build_opening hwritten hspecial henter
    (inside ++ ('<' :: '/' :: tag.toList ++ '>' :: rest))
  rw [hinside, build_closing htag hspecial hleave] at hopen
  exact ⟨_, by simpa using hopen, holds_flushed _ _, rfl⟩

theorem adds_emptyElement (component : String) (before : List Node) (htag : IsTagName tag.toList)
    (hspecial : isSpecial dependencies tag = true) (hattributes : ∀ a ∈ attributes, CanPrint a) :
    Adds component dependencies before [elementNode (dependencies.get? tag) attributes []]
      ('<' :: tag.toList ++ printAttributes attributes ++ ['/', '>']) := by
  intro b rest hb
  have hwritten := written_element htag hattributes (.selfClose blanks_nil)
  have henter := enter_of_holds component dependencies hb
    ⟨tag, attributes.map attributeOf, true⟩
  rw [if_pos rfl, map_bindingOf hattributes] at henter
  exact ⟨_, build_opening hwritten hspecial henter rest, holds_flushed _ _, rfl⟩

/-! ## Trees -/

/-- Nothing has to stand apart from an element. -/
theorem apart_element (used? : Option Instance) (attributes : List (String × Binding))
    (children : List Node) (next : Node) : Apart (elementNode used? attributes children) next := by
  rintro ⟨htext, -⟩
  cases used? <;> cases htext

/-- Nodes can be added behind an element. -/
theorem Adds.behind_element {used? : Option Instance} {children : List Node}
    (hs : Adds component dependencies before [elementNode used? attributes children] s)
    (ht : ∀ before : List Node, (∀ last, before.getLast? = some last →
        ∀ next, more.head? = some next → Apart last next) →
      Adds component dependencies before more t) :
    Adds component dependencies before (elementNode used? attributes children :: more) (s ++ t) := by
  refine hs.append (ht _ fun last hlast next _ => ?_)
  rw [List.getLast?_concat] at hlast
  cases hlast
  exact apart_element used? attributes children next

/-- The printed form of nodes adds them where they stand apart from what is in front. -/
theorem adds_prints (hnames : ∀ tag used, dependencies.get? tag = some used →
      IsTagName tag.toList ∧ tag ≠ "slot") (h : Prints dependencies nodes s)
    (hapart : ∀ last, before.getLast? = some last → ∀ next, nodes.head? = some next →
      Apart last next) : Adds component dependencies before nodes s := by
  have hslot : dependencies.get? "slot" = none := by
    rw [Option.eq_none_iff_forall_ne_some]
    exact fun used hused => (hnames _ used hused).2 rfl
  have hslotName : IsTagName "slot".toList := by decide
  have hslotSpecial : isSpecial dependencies "slot" = true := rfl
  have hspecial {tag : String} {used : Instance} (hused : dependencies.get? tag = some used) :
      isSpecial dependencies tag = true := by
    rw [isSpecial, hused]
    exact Bool.or_true _
  have hnoAttributes : ∀ a ∈ ([] : List (String × Binding)), CanPrint a :=
    fun _ ha => absurd ha List.not_mem_nil
  induction h generalizing before with
  | nil => exact adds_nil
  | plain hplain hnext _ ih =>
    refine (adds_plain hplain fun last hlast => hapart last hlast _ rfl).append (ih ?_)
    intro last hlast next hhead
    rw [List.getLast?_concat] at hlast
    cases hlast
    exact hnext next hhead
  | @use tag used attributes children nodes inside rest hused hattributes hne _ _ ihchildren ih =>
    have hchildren : Adds component dependencies [] _ _ := ihchildren fun last hlast => by cases hlast
    have helement := adds_element before (hnames tag used hused).1 (hspecial hused)
      hattributes hchildren
    rw [hused] at helement
    simpa [elementNode] using helement.behind_element fun _ => ih
  | @emptyUse tag used attributes nodes rest hused hattributes _ ih =>
    have helement := adds_emptyElement component before
      (hnames tag used hused).1 (hspecial hused) hattributes
    rw [hused] at helement
    simpa [elementNode] using helement.behind_element fun _ => ih
  | slot hne _ _ ihchildren ih =>
    have hchildren : Adds component dependencies [] _ _ := ihchildren fun last hlast => by cases hlast
    have helement := adds_element before hslotName hslotSpecial hnoAttributes hchildren
    rw [hslot] at helement
    simpa [elementNode, printAttributes] using helement.behind_element fun _ => ih
  | emptySlot _ ih =>
    have helement := adds_emptyElement component before hslotName
      hslotSpecial hnoAttributes
    rw [hslot] at helement
    simpa [elementNode, printAttributes] using helement.behind_element fun _ => ih

/-- A printed node tree compiles to itself, whenever components are named like tags and none is named
like a slot. -/
theorem compile_prints (component : String) {dependencies : Dependencies}
    (hnames : ∀ tag used, dependencies.get? tag = some used →
      IsTagName tag.toList ∧ tag ≠ "slot") {nodes : List Node} {s : List Char}
    (h : Prints dependencies nodes s) :
    compile component dependencies (String.ofList s) = .ok nodes := by
  have hadds : Adds component dependencies [] nodes s := adds_prints hnames h
    fun last hlast => by cases hlast
  obtain ⟨b, hbuild, hheld, hopened⟩ := hadds {} [] (holds_flushed [] [])
  have hend : build component dependencies b [] = .ok b := by rw [build]
  have hfinish : b.finish component = .ok nodes := by
    rw [Builder.finish, flush_of_holds hheld, hopened]
    rfl
  rw [List.append_nil, hend] at hbuild
  rw [compile, String.toList_ofList, hbuild]
  exact hfinish

/-- A component with nothing in it. -/
def plainCard : Instance := ⟨"Card", [], []⟩

/-- Text, an expression, and a use with each kind of attribute, whose children are a slot with a
fallback and an expression that looks like one more opening. -/
def printedNodes : List Node :=
  [.text "Hi \x7d ", .expression "user.name",
    plainCard.use [("title", .literal "a > b"), ("post", .expression "p['x']"), (":wide", .flag)]
      [.slot [.text "none"], .expression "\x7b\x7b"], plainCard.use [] []]

/-- The printed form of `printedNodes`. -/
def printedText : String :=
  "Hi \x7d \x7b\x7b user.name \x7d\x7d<my-card title=\"a > b\" :post=\"p['x']\" :wide>" ++
    "<slot>none</slot>\x7b\x7b \x7b\x7b \x7d\x7d</my-card><my-card/>"

theorem compile_prints_card :
    Prints [("my-card", plainCard)] printedNodes printedText.toList ∧
      compile "Page" [("my-card", plainCard)] printedText = .ok printedNodes := by
  have hcard : IsTagName "my-card".toList := by decide
  have hnames : ∀ tag used, Dict.get? tag [("my-card", plainCard)] = some used →
      IsTagName tag.toList ∧ tag ≠ "slot" := by
    intro tag used hused
    rw [Dict.get?] at hused
    split at hused
    · next htag =>
      rw [← htag]
      exact ⟨hcard, by decide⟩
    · cases hused
  have hnoAttributes : ∀ a ∈ ([] : List (String × Binding)), CanPrint a :=
    fun _ ha => absurd ha List.not_mem_nil
  have hattributes : ∀ a ∈ [("title", Binding.literal "a > b"), ("post", .expression "p['x']"),
      (":wide", .flag)], CanPrint a := by
    simp only [List.forall_mem_cons, CanPrint]
    exact ⟨by decide, by decide, by decide, hnoAttributes⟩
  have hchildren : Prints [("my-card", plainCard)] [.slot [.text "none"], .expression "\x7b\x7b"]
      "<slot>none</slot>\x7b\x7b \x7b\x7b \x7d\x7d".toList :=
    .slot (by simp) (.plain (by simp [IsPlain]) (by simp) .nil)
      (.plain (by simp [IsPlain]; decide) (by simp) .nil)
  have hused : Dict.get? "my-card" [("my-card", plainCard)] = some plainCard := rfl
  have hcards := Prints.use hused hattributes (by simp) hchildren
    (.emptyUse hused hnoAttributes .nil)
  have h : Prints [("my-card", plainCard)] printedNodes printedText.toList :=
    .plain (by simp [IsPlain]) (by simp [Apart, Node.isText])
      (.plain (by simp [IsPlain]; decide) (by simp [Apart, Node.isText]) hcards)
  have hcompile := compile_prints "Page" hnames h
  rw [String.ofList_toList] at hcompile
  exact ⟨h, hcompile⟩

end Template

end StaticSite
