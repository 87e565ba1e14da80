import StaticSite.Proofs.Stages
import StaticSite.Proofs.Success

/-!
# The tags that a template uses

Two readers look for tags in a template. `tagNames` takes the run of name characters behind every
`<`, without regard to comments, quotes or how a tag goes on; the compiler reads whole tags, whose
names may also have dashes, colons and dots. As long as components are named with name characters
only, the first reader finds every component that the second one meets: behind the `<` of an opening
tag stands its name, and a closing tag is of use only behind an opening one of the same name.

So a template that compiles when all components are visible compiles to the same nodes when only
those are that `tagNames` finds.
-/

namespace StaticSite

open Text

/-! ## Texts behind texts -/

namespace Markup

theorem suffix_of_readAttributeValue {s value rest : List Char}
    (h : readAttributeValue s = some (value, rest)) : rest <:+ s := by
  have hblank := List.dropWhile_suffix (l := s) isMarkupBlank
  rw [readAttributeValue] at h
  split at h
  · cases h
  · next c t ht =>
    rw [ht] at hblank
    split at h
    · exact (suffix_of_cut? h).trans ((List.suffix_cons c t).trans hblank)
    · cases h
      exact (List.dropWhile_suffix _).trans hblank

theorem suffix_of_readAttribute {s rest : List Char} {a : Attribute}
    (h : readAttribute s = some (a, rest)) : rest <:+ s := by
  have hname := List.dropWhile_suffix (l := s) isAttributeChar
  have hblank := List.dropWhile_suffix (l := s.dropWhile isAttributeChar) isMarkupBlank
  rw [readAttribute] at h
  split at h
  · cases h
  · dsimp only at h
    split at h
    · next t ht =>
      obtain ⟨⟨value, r⟩, hvalue, heq⟩ := Option.map_eq_some_iff.1 h
      cases heq
      rw [ht] at hblank
      have hrest := (suffix_of_readAttributeValue hvalue).trans (List.suffix_cons '=' t)
      exact hrest.trans (hblank.trans hname)
    · cases h
      exact hname

theorem suffix_of_readAttributes {s rest : List Char} {attributes : List Attribute}
    {selfClosing : Bool} (h : readAttributes s = some (attributes, selfClosing, rest)) :
    rest <:+ s := by
  fun_induction readAttributes s generalizing attributes with
  | case1 => cases h
  | case2 s t ht =>
    cases h
    have hblank := List.dropWhile_suffix (l := s) isMarkupBlank
    rw [ht] at hblank
    exact (List.suffix_cons '>' _).trans hblank
  | case3 s t ht =>
    cases h
    have hblank := List.dropWhile_suffix (l := s) isMarkupBlank
    rw [ht] at hblank
    exact ((List.suffix_cons '>' _).trans (List.suffix_cons '/' _)).trans hblank
  | case4 => cases h
  | case5 => cases h
  | case6 s a t more closing behind hr _ _ _ ha ih =>
    cases h
    have hblank := List.dropWhile_suffix (l := s) isMarkupBlank
    exact (ih hr).trans ((suffix_of_readAttribute ha).trans hblank)

/-- What an opening tag is made of: `<`, its name, and attributes up to the text behind it. -/
theorem readOpeningTag_eq_some {s rest : List Char} {tag : OpeningTag}
    (h : readOpeningTag s = some (tag, rest)) : ∃ c t, s = '<' :: c :: t ∧ isNameChar c = true ∧
      tag.name = String.ofList (c :: t.takeWhile isTagChar) ∧ rest <:+ s := by
  unfold readOpeningTag at h
  split at h
  · next c t =>
    split at h
    · next hc =>
      split at h
      · next ha =>
        cases h
        refine ⟨c, t, rfl, hc, rfl, ?_⟩
        have hrest := (suffix_of_readAttributes ha).trans (List.dropWhile_suffix isTagChar)
        exact (hrest.trans (List.suffix_cons c t)).trans (List.suffix_cons '<' _)
      · cases h
    · cases h
  · cases h

/-! ## Runs of name characters -/

theorem mem_tagRuns_cons {c : Char} {s run : List Char} (h : run ∈ tagRuns s) :
    run ∈ tagRuns (c :: s) := by
  rw [tagRuns]
  split
  · split
    · exact h
    · exact List.mem_cons_of_mem _ h
  · exact h

/-- What stands in the end of a text stands in the text. -/
theorem tagRuns_subset_of_suffix {s t : List Char} (h : s <:+ t) : tagRuns s ⊆ tagRuns t := by
  induction t with
  | nil =>
    rw [List.suffix_nil.1 h]
    exact List.Subset.refl _
  | cons c t ih =>
    rcases List.suffix_cons_iff.1 h with rfl | h
    · exact List.Subset.refl _
    · exact fun run hrun => mem_tagRuns_cons (ih h hrun)

/-- A tag's full name that has name characters only ends where these do. -/
theorem takeWhile_isTagChar {s : List Char}
    (h : ∀ c ∈ s.takeWhile isTagChar, isNameChar c = true) :
    s.takeWhile isTagChar = s.takeWhile isNameChar := by
  induction s with
  | nil => rfl
  | cons c s ih =>
    cases htag : isTagChar c with
    | true =>
      rw [List.takeWhile_cons_of_pos htag] at h
      rw [List.takeWhile_cons_of_pos htag,
        List.takeWhile_cons_of_pos (h c List.mem_cons_self),
        ih fun d hd => h d (List.mem_cons_of_mem _ hd)]
    | false =>
      have hname : isNameChar c = false := by
        simp only [isTagChar, Bool.or_eq_false_iff] at htag
        exact htag.1.1.1
      rw [List.takeWhile_cons_of_neg (by simp [htag]), List.takeWhile_cons_of_neg (by simp [hname])]

/-- Behind the `<` of an opening tag whose name has name characters only, this name is the run. -/
theorem name_mem_tagRuns {s rest : List Char} {tag : OpeningTag}
    (h : readOpeningTag s = some (tag, rest))
    (hname : ∀ c ∈ tag.name.toList, isNameChar c = true) : tag.name.toList ∈ tagRuns s := by
  obtain ⟨c, t, rfl, hc, htag, -⟩ := readOpeningTag_eq_some h
  rw [htag, String.toList_ofList] at hname ⊢
  have hrun : (c :: t).takeWhile isNameChar = c :: t.takeWhile isTagChar := by
    rw [List.takeWhile_cons_of_pos hc,
      takeWhile_isTagChar fun d hd => hname d (List.mem_cons_of_mem _ hd)]
  rw [tagRuns, if_pos rfl, hrun]
  exact List.mem_cons_self

end Markup

namespace Template

open Markup

/-! ## Components that may be seen -/

/-- Of all components those are visible, among others perhaps, that a text has tags of. -/
structure Sees (all visible : Dependencies) (s : List Char) : Prop where
  /-- what is visible is there -/
  visible_le : ∀ name i, Dict.get? name visible = some i → Dict.get? name all = some i
  /-- components are named with name characters -/
  named : ∀ name, (Dict.get? name all).isSome → ∀ c ∈ name.toList, isNameChar c = true
  /-- what the text has tags of is visible -/
  seen : ∀ run ∈ tagRuns s,
    Dict.get? (String.ofList run) visible = Dict.get? (String.ofList run) all

variable {all visible : Dependencies} {component : String}

theorem Sees.of_suffix {s t : List Char} (h : Sees all visible t) (hs : s <:+ t) :
    Sees all visible s :=
  ⟨h.visible_le, h.named, fun run hrun => h.seen run (tagRuns_subset_of_suffix hs hrun)⟩

/-- A tag that is special among the visible components is special among all. -/
theorem Sees.isSpecial {s : List Char} (h : Sees all visible s) {tag : String}
    (hspecial : isSpecial visible tag = true) : isSpecial all tag = true := by
  rw [Template.isSpecial, Bool.or_eq_true, Option.isSome_iff_exists] at hspecial ⊢
  exact hspecial.imp id fun ⟨i, hi⟩ => ⟨i, h.visible_le tag i hi⟩

/-- An opening tag of a component is seen. -/
theorem Sees.get?_name {s rest : List Char} {tag : OpeningTag} (h : Sees all visible s)
    (htag : readOpeningTag s = some (tag, rest)) :
    Dict.get? tag.name visible = Dict.get? tag.name all := by
  rcases hall : Dict.get? tag.name all with _ | i
  · cases hvisible : Dict.get? tag.name visible with
    | none => rfl
    | some i =>
      rw [h.visible_le _ _ hvisible] at hall
      cases hall
  · have hrun := name_mem_tagRuns htag (h.named tag.name (by rw [hall]; rfl))
    have hseen := h.seen _ hrun
    rwa [String.ofList_toList, hall] at hseen

theorem Sees.isSpecial_name {s rest : List Char} {tag : OpeningTag} (h : Sees all visible s)
    (htag : readOpeningTag s = some (tag, rest)) :
    Template.isSpecial visible tag.name = Template.isSpecial all tag.name := by
  rw [Template.isSpecial, Template.isSpecial, h.get?_name htag]

/-! ## Building with fewer components -/

theorem closingTag?_eq_some {dependencies : Dependencies} {s rest : List Char} {tag : String} :
    closingTag? dependencies s = some (tag, rest) ↔
      ∃ inside, (startsWith? ['<', '/'] s).bind (cut? ['>']) = some (inside, rest) ∧
        tag = String.ofList (trim inside) ∧ isSpecial dependencies tag = true := by
  rw [closingTag?]
  cases (startsWith? ['<', '/'] s).bind (cut? ['>']) with
  | none => simp
  | some found =>
    obtain ⟨inside, behind⟩ := found
    dsimp only
    split
    · next hspecial =>
      constructor
      · rintro ⟨⟩
        exact ⟨inside, rfl, rfl, hspecial⟩
      · rintro ⟨inside, ⟨⟩, rfl, -⟩
        rfl
    · next hplain =>
      constructor
      · rintro ⟨⟩
      · rintro ⟨inside, ⟨⟩, rfl, hspecial⟩
        exact absurd hspecial hplain

/-- What closes nothing with all components at hand closes nothing with some of them. -/
theorem Sees.closingTag?_eq_none {s : List Char} (h : Sees all visible s)
    (hnone : closingTag? all s = none) : closingTag? visible s = none := by
  rw [Option.eq_none_iff_forall_not_mem]
  rintro ⟨tag, rest⟩ htag
  obtain ⟨inside, hfound, hname, hspecial⟩ := closingTag?_eq_some.1 htag
  rw [closingTag?_eq_some.2 ⟨inside, hfound, hname, h.isSpecial hspecial⟩] at hnone
  cases hnone

theorem suffix_of_closingTag? {dependencies : Dependencies} {s rest : List Char} {tag : String}
    (h : closingTag? dependencies s = some (tag, rest)) : rest <:+ s := by
  obtain ⟨inside, hfound, -, -⟩ := closingTag?_eq_some.1 h
  obtain ⟨behind, hstart, hcut⟩ := Option.bind_eq_some_iff.1 hfound
  rw [startsWith?_eq_some.1 hstart]
  exact (suffix_of_cut? hcut).trans (List.suffix_append _ _)

namespace Builder

variable {b b' : Builder}

theorem opened_of_flush (h : b.flush component = .ok b') : b'.opened = b.opened := by
  rw [flush] at h
  split at h
  · cases h
    rfl
  · cases h

/-- An opening tag opens at most one element, of its own name. -/
theorem opened_of_enter {dependencies : Dependencies} {tag : OpeningTag}
    (h : b.enter component dependencies tag = .ok b') :
    ∀ element ∈ b'.opened, element.tag = tag.name ∨ element ∈ b.opened := by
  rw [enter] at h
  obtain ⟨b₁, hflush, h⟩ := bind_eq_ok h
  rw [← opened_of_flush hflush]
  dsimp only at h
  split at h
  · cases h
    exact fun element helement => .inr helement
  · cases h
    intro element helement
    exact (List.mem_cons.1 helement).imp (fun heq => by rw [heq]) id

/-- A closing tag closes an element of its name. -/
theorem opened_of_leave {tag : String} (h : b.leave component tag = .ok b') :
    ∃ element, element.tag = tag ∧ b.opened = element :: b'.opened := by
  rw [leave] at h
  obtain ⟨b₁, hflush, h⟩ := bind_eq_ok h
  rw [← opened_of_flush hflush]
  split at h
  · cases h
  · next element around hopened =>
    split at h
    · next htag =>
      cases h
      exact ⟨element, htag, hopened⟩
    · cases h

/-- An opening tag asks for the component of its name only. -/
theorem enter_congr {tag : OpeningTag} (h : Dict.get? tag.name visible = Dict.get? tag.name all) :
    b.enter component visible tag = b.enter component all tag := by
  rw [enter, enter, h]

/-- The open elements are of components that may be seen, or slots. -/
def OpensOnly (visible : Dependencies) (b : Builder) : Prop :=
  ∀ element ∈ b.opened, isSpecial visible element.tag = true

theorem OpensOnly.enter {dependencies : Dependencies} {tag : OpeningTag} (h : b.OpensOnly visible)
    (hspecial : isSpecial visible tag.name = true)
    (henter : b.enter component dependencies tag = .ok b') : b'.OpensOnly visible := by
  intro element helement
  rcases opened_of_enter henter element helement with hname | hbefore
  · rw [hname]
    exact hspecial
  · exact h element hbefore

/-- What a closing tag closes has been opened, so its component may be seen. -/
theorem OpensOnly.leave {tag : String} (h : b.OpensOnly visible)
    (hleave : b.leave component tag = .ok b') :
    isSpecial visible tag = true ∧ b'.OpensOnly visible := by
  obtain ⟨element, rfl, hopened⟩ := opened_of_leave hleave
  exact ⟨h element (hopened ▸ List.mem_cons_self),
    fun other hother => h other (hopened ▸ List.mem_cons_of_mem _ hother)⟩

end Builder

theorem build_cons (dependencies : Dependencies) (b : Builder) (c : Char) (t : List Char) :
    build component dependencies b (c :: t) =
      if c ≠ '<' then build component dependencies (b.push [c]) t
      else if (startsWith? "<!--".toList (c :: t)).isSome then
        match cut? "-->".toList (c :: t) with
        | some (_, rest) => build component dependencies b rest
        | none => .ok b
      else if t.head? = some '/' then
        match closingTag? dependencies (c :: t) with
        | some (tag, rest) =>
          match b.leave component tag with
          | .ok b => build component dependencies b rest
          | .error e => .error e
        | none => build component dependencies (b.push [c]) t
      else
        match readOpeningTag (c :: t) with
        | none => build component dependencies (b.push [c]) t
        | some (tag, rest) =>
          if isSpecial dependencies tag.name then
            match b.enter component dependencies tag with
            | .ok b => build component dependencies b rest
            | .error e => .error e
          else
            let whole := (c :: t).take ((c :: t).length - rest.length)
            build component dependencies (b.push whole) rest := by
  rw [build]
  refine if_congr Iff.rfl rfl (if_congr Iff.rfl ?_ (if_congr Iff.rfl ?_ ?_))
  · cases cut? "-->".toList (c :: t) <;> rfl
  · cases closingTag? dependencies (c :: t) <;> rfl
  · cases readOpeningTag (c :: t) <;> rfl

/-- What is read with all components at hand is read alike when those are visible that the text has
tags of. -/
theorem build_of_sees {b b' : Builder} {s : List Char} (hsees : Sees all visible s)
    (hopened : b.OpensOnly visible) (h : build component all b s = .ok b') :
    build component visible b s = .ok b' := by
  fun_induction build component all b s with
  | case1 b =>
    rw [build]
    exact h
  | case2 b c t hc ih =>
    rw [build_cons, if_pos hc]
    exact ih (hsees.of_suffix (List.suffix_cons c t)) hopened h
  | case3 b c t hc hcomment before rest hcut ih =>
    rw [build_cons, if_neg hc, if_pos hcomment, hcut]
    exact ih (hsees.of_suffix (suffix_of_cut? hcut)) hopened h
  | case4 b c t hc hcomment hcut =>
    rw [build_cons, if_neg hc, if_pos hcomment, hcut]
    exact h
  | case5 b c t hc hcomment hslash tag rest hclose b₁ hleave ih =>
    obtain ⟨hspecial, hopened₁⟩ := hopened.leave hleave
    obtain ⟨inside, hfound, hname, -⟩ := closingTag?_eq_some.1 hclose
    have hclose' := closingTag?_eq_some.2 ⟨inside, hfound, hname, hspecial⟩
    rw [build_cons, if_neg hc, if_neg hcomment, if_pos hslash, hclose']
    dsimp only
    rw [hleave]
    exact ih (hsees.of_suffix (suffix_of_closingTag? hclose)) hopened₁ h
  | case6 => cases h
  | case7 b c t hc hcomment hslash hclose ih =>
    rw [build_cons, if_neg hc, if_neg hcomment, if_pos hslash, hsees.closingTag?_eq_none hclose]
    exact ih (hsees.of_suffix (List.suffix_cons c t)) hopened h
  | case8 b c t hc hcomment hslash htag ih =>
    rw [build_cons, if_neg hc, if_neg hcomment, if_neg hslash, htag]
    exact ih (hsees.of_suffix (List.suffix_cons c t)) hopened h
  | case9 b c t hc hcomment hslash tag rest htag hspecial b₁ henter ih =>
    have hspecial' : isSpecial visible tag.name = true := (hsees.isSpecial_name htag).trans hspecial
    obtain ⟨-, -, -, -, -, hrest⟩ := readOpeningTag_eq_some htag
    rw [build_cons, if_neg hc, if_neg hcomment, if_neg hslash, htag]
    dsimp only
    rw [if_pos hspecial', Builder.enter_congr (hsees.get?_name htag), henter]
    exact ih (hsees.of_suffix hrest) (hopened.enter hspecial' henter) h
  | case10 => cases h
  | case11 b c t hc hcomment hslash tag rest htag hplain whole ih =>
    have hplain' : ¬ isSpecial visible tag.name = true := by
      rw [hsees.isSpecial_name htag]
      exact hplain
    obtain ⟨-, -, -, -, -, hrest⟩ := readOpeningTag_eq_some htag
    rw [build_cons, if_neg hc, if_neg hcomment, if_neg hslash, htag]
    dsimp only
    rw [if_neg hplain']
    exact ih (hsees.of_suffix hrest) hopened h

/-- A template that compiles with all components at hand compiles to the same nodes when those are
visible that it has tags of. -/
theorem compile_of_sees {template : String} {nodes : List Node}
    (hsees : Sees all visible template.toList) (h : compile component all template = .ok nodes) :
    compile component visible template = .ok nodes := by
  rw [compile] at h ⊢
  obtain ⟨b, hbuild, hfinish⟩ := bind_eq_ok h
  have hnone : Builder.OpensOnly visible {} := fun _ helement => absurd helement List.not_mem_nil
  rw [build_of_sees hsees hnone hbuild]
  exact hfinish

end Template

namespace Registry

open Template Markup

/-! ## What is linked is enough -/

theorem mem_resolveTags {I : Type} {r : Registry I} {tags : List String} {id : Nat} :
    id ∈ r.resolveTags tags ↔ ∃ c, r.components[id]? = some c ∧ c.name ∈ tags := by
  rw [resolveTags, List.mem_filterMap]
  constructor
  · rintro ⟨tag, htag, hid⟩
    obtain ⟨c, hc, rfl⟩ := idOf?_eq_some.1 hid
    exact ⟨c, hc, htag⟩
  · rintro ⟨c, hc, htag⟩
    exact ⟨c.name, htag, idOf?_eq_some.2 ⟨c, hc, rfl⟩⟩

theorem mem_tagNames {template : String} {run : List Char} (h : run ∈ tagRuns template.toList) :
    String.ofList run ∈ tagNames template := by
  rw [tagNames, mem_distinct]
  exact List.mem_map_of_mem h

/-- Among the components of a registry those that a template has tags of are all that it may use. -/
theorem sees_resolveTags {r : Registry Instance}
    (hnames : ∀ c ∈ r.components, ∀ ch ∈ c.name.toList, isNameChar ch = true) (template : String) :
    Sees (r.instancesOf (List.range r.size)) (r.instancesOf (r.resolveTags (tagNames template)))
      template.toList where
  visible_le name i h := by
    obtain ⟨id, -, c, hc, hname, hi⟩ := get?_instancesOf.1 h
    have hlt : id < r.size := (List.getElem?_eq_some_iff.1 hc).1
    exact get?_instancesOf.2 ⟨id, List.mem_range.2 hlt, c, hc, hname, hi⟩
  named name h := by
    obtain ⟨i, hi⟩ := Option.isSome_iff_exists.1 h
    obtain ⟨id, -, c, hc, rfl, -⟩ := get?_instancesOf.1 hi
    exact hnames c (List.mem_of_getElem? hc)
  seen run hrun := by
    refine Option.ext fun i => ?_
    rw [get?_instancesOf, get?_instancesOf]
    constructor
    · rintro ⟨id, -, c, hc, hname, hi⟩
      have hlt : id < r.size := (List.getElem?_eq_some_iff.1 hc).1
      exact ⟨id, List.mem_range.2 hlt, c, hc, hname, hi⟩
    · rintro ⟨id, -, c, hc, hname, hi⟩
      have htag : c.name ∈ tagNames template := hname ▸ mem_tagNames hrun
      exact ⟨id, mem_resolveTags.2 ⟨c, hc, htag⟩, c, hc, hname, hi⟩

/-- **Linking loses no use of a component.** When all components are named with ASCII letters,
digits and underscores, and a template compiles with all of them at hand, then it compiles to the
same nodes with those only that linking finds in it. -/
theorem compile_linked (r : Registry Instance)
    (hnames : ∀ c ∈ r.components, ∀ ch ∈ c.name.toList, isNameChar ch = true)
    (component template : String) (nodes : List Node)
    (h : compile component (r.instancesOf (List.range r.size)) template = .ok nodes) :
    compile component (r.instancesOf (r.resolveTags (tagNames template))) template = .ok nodes :=
  compile_of_sees (sees_resolveTags hnames template) h

/-- A component with an instance. -/
def made (name : String) : Component Instance where
  name := name
  path := ⟨name⟩
  blocks := ⟨"", "", []⟩
  exports := {}
  built? := some ⟨name, [], []⟩

/-- Three components. -/
def threeMade : Registry Instance :=
  after instantiate [.insert (made "Card"), .insert (made "Icon"), .insert (made "Nav")]

/-- A template that uses two of them, one of them inside the other, next to a tag that only ends
like one. -/
def cardTemplate : String := "<my-Card/><Card :of=\"who\"><Icon/></Card><br>"

/-- `Nav` is not found in the template and need not be. -/
theorem compile_linked_card : threeMade.resolveTags (tagNames cardTemplate) = [0, 1] ∧
    threeMade.size = 3 ∧ ∃ nodes, nodes.length = 3 ∧
      compile "Page" (threeMade.instancesOf (List.range threeMade.size)) cardTemplate =
        .ok nodes ∧
      compile "Page" (threeMade.instancesOf (threeMade.resolveTags (tagNames cardTemplate)))
        cardTemplate = .ok nodes := by
  have hnames : threeMade.components.map (·.name) = ["Card", "Icon", "Nav"] := by decide +kernel
  have hchars : (["Card", "Icon", "Nav"].all fun name => name.toList.all isNameChar) = true := by
    decide +kernel
  have hnamed : ∀ c ∈ threeMade.components, ∀ ch ∈ c.name.toList, isNameChar ch = true := by
    intro c hc
    have hname : c.name ∈ ["Card", "Icon", "Nav"] := hnames ▸ List.mem_map_of_mem hc
    exact List.all_eq_true.1 (List.all_eq_true.1 hchars c.name hname)
  have hlength : (compile "Page" (threeMade.instancesOf (List.range threeMade.size))
      cardTemplate).map List.length = .ok 3 := by decide +kernel
  rcases hall : compile "Page" (threeMade.instancesOf (List.range threeMade.size))
    cardTemplate with e | nodes
  · rw [hall] at hlength
    cases hlength
  · rw [hall] at hlength
    exact ⟨by decide +kernel, by decide +kernel, nodes, Except.ok.inj hlength, rfl,
      compile_linked threeMade hnamed "Page" cardTemplate nodes hall⟩

end Registry

end StaticSite
