import Mathlib.Data.List.DropRight
import StaticSite.Proofs.InOrder
import StaticSite.Proofs.OpenBraces
import StaticSite.Proofs.Slots

/-!
# Markup that means nothing to the compiler

Special tags, comments and double braces are all that a template can say. Where none of them can be
told, because the words that they are made of do not occur, the template is text, however malformed
it is as markup: the compiler takes it apart at tags, at stray angle brackets and at closing tags
without a partner, and pushes every piece as it stands (`build_ordinary`). So rendering gives the
template back (`ordinary_renders_itself`).
-/

namespace StaticSite.Template

open Text Markup

/-- Markup in which nothing occurs that could mean something: no opening braces, no start of a
comment, and no name of a special tag, neither in a tag nor anywhere else. -/
structure Ordinary (dependencies : Dependencies) (template : List Char) : Prop where
  /-- there are no double braces -/
  noBraces : ¬ ['\x7b', '\x7b'] <:+: template
  /-- there are no comments -/
  noComment : ¬ "<!--".toList <:+: template
  /-- the word `slot` does not occur -/
  noSlot : ¬ "slot".toList <:+: template
  /-- no component is named -/
  noName : ∀ entry ∈ dependencies, ¬ entry.1.toList <:+: template

namespace Ordinary

variable {dependencies : Dependencies} {s t : List Char}

theorem of_suffix (h : Ordinary dependencies s) (hs : t <:+ s) : Ordinary dependencies t where
  noBraces hbraces := h.noBraces (hbraces.trans hs.isInfix)
  noComment hcomment := h.noComment (hcomment.trans hs.isInfix)
  noSlot hslot := h.noSlot (hslot.trans hs.isInfix)
  noName entry hentry hname := h.noName entry hentry (hname.trans hs.isInfix)

/-- A name that occurs is not special. -/
theorem not_isSpecial (h : Ordinary dependencies s) {tag : String} (htag : tag.toList <:+: s) :
    isSpecial dependencies tag = false := by
  rw [Bool.eq_false_iff, isSpecial, Ne, Bool.or_eq_true, beq_iff_eq, Option.isSome_iff_exists]
  rintro (rfl | ⟨used, hused⟩)
  · exact h.noSlot htag
  · exact h.noName _ (Dict.mem_of_get? hused) htag

end Ordinary

section

variable {component : String} {dependencies : Dependencies} {s : List Char}

theorem trim_within (s : List Char) : trim s <:+: s :=
  (List.rdropWhile_prefix (p := isBlank) (l := trimStart s)).isInfix.trans
    (List.dropWhile_suffix isBlank).isInfix

/-- The name of a closing tag occurs in it, so ordinary markup has none that closes anything. -/
theorem closingTag?_ordinary (h : Ordinary dependencies s) : closingTag? dependencies s = none := by
  rw [Option.eq_none_iff_forall_ne_some]
  rintro ⟨tag, rest⟩ hclose
  obtain ⟨inside, hfound, rfl, hspecial⟩ := closingTag?_eq_some.1 hclose
  obtain ⟨behind, hstart, hcut⟩ := Option.bind_eq_some_iff.1 hfound
  have hinside : inside <:+: s := by
    rw [startsWith?_eq_some.1 hstart, cut?_eq_some hcut]
    exact ⟨['<', '/'], ['>'] ++ rest, by simp⟩
  have hname : (String.ofList (trim inside)).toList <:+: s := by
    rw [String.toList_ofList]
    exact (trim_within inside).trans hinside
  rw [h.not_isSpecial hname] at hspecial
  cases hspecial

/-- The name of an opening tag occurs in it, so ordinary markup has none that opens anything. -/
theorem not_isSpecial_ordinary (h : Ordinary dependencies s) {tag : OpeningTag} {rest : List Char}
    (hread : readOpeningTag s = some (tag, rest)) : isSpecial dependencies tag.name = false := by
  obtain ⟨c, t, rfl, -, hname, -⟩ := readOpeningTag_eq_some hread
  refine h.not_isSpecial ?_
  rw [hname, String.toList_ofList]
  exact ⟨['<'], t.dropWhile isTagChar, by simp [List.takeWhile_append_dropWhile]⟩

theorem not_comment_ordinary (h : Ordinary dependencies s) :
    ¬ (startsWith? "<!--".toList s).isSome = true := by
  rw [Option.isSome_iff_exists]
  rintro ⟨rest, hrest⟩
  exact h.noComment ⟨[], rest, (startsWith?_eq_some.1 hrest).symm⟩

theorem push_push (b : Builder) (s t : List Char) : (b.push s).push t = b.push (s ++ t) := by
  simp [Builder.push]

/-- **Every piece of ordinary markup is pushed as it stands**, whichever way the compiler takes. -/
theorem build_ordinary (h : Ordinary dependencies s) (b : Builder) :
    build component dependencies b s = .ok (b.push s) := by
  fun_induction build component dependencies b s with
  | case1 b => rfl
  -- a character that starts nothing, a closing tag of nothing, and a stray bracket
  | case2 b c t _ ih | case7 b c t _ _ _ _ ih | case8 b c t _ _ _ _ ih =>
    rw [ih (h.of_suffix (List.suffix_cons c t)), push_push, List.singleton_append]
  | case3 b c t hc hcomment | case4 b c t hc hcomment =>
    exact absurd hcomment (not_comment_ordinary h)
  | case5 b c t _ _ _ tag rest hclose | case6 b c t _ _ _ tag rest hclose =>
    cases (closingTag?_ordinary h).symm.trans hclose
  | case9 b c t _ _ _ tag rest hread hspecial | case10 b c t _ _ _ tag rest hread hspecial =>
    cases (not_isSpecial_ordinary h hread).symm.trans hspecial
  | case11 b c t hc hcomment hslash tag rest hread hspecial whole ih =>
    obtain ⟨-, -, -, -, -, hsuffix⟩ := readOpeningTag_eq_some hread
    rw [ih (h.of_suffix hsuffix), push_push]
    obtain ⟨taken, htaken⟩ := hsuffix
    have hwhole : whole = taken := by simp [whole, ← htaken]
    rw [hwhole, htaken]

theorem splitText_of_noBraces (h : ¬ ['\x7b', '\x7b'] <:+: s) (offset : Nat) :
    splitText offset s = .ok (textNode s) := by
  rw [splitText]
  split
  · rfl
  · next before inside hcut => exact absurd ⟨before, inside, (cut?_eq_some hcut).symm⟩ h

theorem compile_ordinary {template : String} (h : Ordinary dependencies template.toList) :
    compile component dependencies template = .ok (textNode template.toList) := by
  have hpending : (Builder.push {} template.toList).pending.reverse = template.toList := by
    simp [Builder.push]
  rw [compile, build_ordinary h]
  change (Builder.push {} template.toList).finish component = _
  rw [Builder.finish, Builder.flush, hpending, splitText_of_noBraces h.noBraces]
  rfl

theorem renderNodes_textNode (scope : Fields) (content : SlotContent) (s : List Char) :
    renderNodes component scope content (textNode s) = .ok s := by
  rw [textNode]
  split
  · next hs => rw [hs, renderNodes]
  · rw [renderNodes_singleton, renderNode, String.toList_ofList]

end

/-- **Ordinary markup passes through.** A template in which nothing special occurs makes an instance,
and what that shows for any data is the template. -/
theorem ordinary_renders_itself {name template : String} {exports : Exports}
    {dependencies : Dependencies} (hprops : exports.props? = none)
    (h : Ordinary dependencies template.toList) :
    ∃ i, instantiate ⟨name, template, exports, dependencies⟩ = .ok i ∧
      ∀ fields, render i (.object fields) = .ok template := by
  refine ⟨⟨name, [], textNode template.toList⟩, ?_, fun fields => ?_⟩
  · rw [instantiate, ownData, hprops, compile_ordinary h]
    rfl
  · change (do
      return String.ofList (← renderNodes name (Dict.insertAll [] fields) none
        (textNode template.toList))) = _
    rw [renderNodes_textNode]
    exact congrArg Except.ok String.ofList_toList

/-- A tag of another spelling than the component's, a closing tag without a partner, a lone brace, a
stray bracket, and a tag whose quote is never closed. -/
def strayMarkup : String := "<card a=1>é</b> \x7b a < 1 </ <p title='"

theorem ordinary_renders_itself_stray :
    Ordinary [("Card", ⟨"Card", [], []⟩)] strayMarkup.toList ∧
      ∃ i, instantiate ⟨"Page", strayMarkup, {}, [("Card", ⟨"Card", [], []⟩)]⟩ = .ok i ∧
        ∀ fields, render i (.object fields) = .ok strayMarkup := by
  have hordinary : Ordinary [("Card", ⟨"Card", [], []⟩)] strayMarkup.toList := by
    refine ⟨by decide, by decide, by decide, fun entry hentry => ?_⟩
    rw [List.mem_singleton.1 hentry]
    decide
  exact ⟨hordinary, ordinary_renders_itself rfl hordinary⟩

end StaticSite.Template
