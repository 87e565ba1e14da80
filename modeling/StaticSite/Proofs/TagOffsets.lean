import StaticSite.Proofs.OpenBraces
import StaticSite.Proofs.OpeningTags
import StaticSite.Proofs.TagsInUse

/-!
# Opening tags at their offsets

`openingTagAt` answers in offsets, counted in bytes. A tag that is written somewhere in a text is read
at its offset, with the offset behind it, whatever stands before and behind. And wherever a tag is
read, it is a stretch of whole characters, of which the first one is `<` and the last one is `>`
(`openingTagAt_written`).
-/

namespace StaticSite.Markup

open Text

variable {s t rest : List Char} {n : Nat}

/-- What is left behind some bytes of a text stands behind whole characters of that length. -/
theorem exists_of_dropBytes? (h : dropBytes? n s = some t) :
    ∃ before, s = before ++ t ∧ byteLength before = n := by
  fun_induction dropBytes? n s with
  | case1 s =>
    cases h
    exact ⟨[], rfl, rfl⟩
  | case2 => cases h
  | case3 n c s hfits ih =>
    obtain ⟨before, rfl, hlength⟩ := ih h
    refine ⟨c :: before, rfl, ?_⟩
    rw [byteLength_cons, hlength]
    omega
  | case4 => cases h

/-! ## Where a tag ends -/

/-- In front of what is left of a text behind the attributes of a tag stands `>`. -/
theorem close_of_readAttributes {attributes : List Attribute} {selfClosing : Bool}
    (h : readAttributes s = some (attributes, selfClosing, rest)) : '>' :: rest <:+ s := by
  fun_induction readAttributes s generalizing attributes with
  | case1 => cases h
  | case2 s t ht =>
    cases h
    have hblank := List.dropWhile_suffix (l := s) isMarkupBlank
    rwa [ht] at hblank
  | case3 s t ht =>
    cases h
    have hblank := List.dropWhile_suffix (l := s) isMarkupBlank
    rw [ht] at hblank
    exact (List.suffix_cons '/' _).trans hblank
  | case4 => cases h
  | case5 => cases h
  | case6 s a t more closing behind hr _ _ _ ha ih =>
    cases h
    have hblank := List.dropWhile_suffix (l := s) isMarkupBlank
    exact (ih hr).trans ((suffix_of_readAttribute ha).trans hblank)

theorem exists_of_readOpeningTag {tag : OpeningTag} (h : readOpeningTag s = some (tag, rest)) :
    ∃ inside, s = '<' :: inside ++ '>' :: rest := by
  unfold readOpeningTag at h
  split at h
  · next c t =>
    split at h
    · split at h
      · next ha =>
        cases h
        have hname := List.dropWhile_suffix (l := t) isTagChar
        obtain ⟨inside, hinside⟩ := (close_of_readAttributes ha).trans hname
        exact ⟨c :: inside, by simp [hinside]⟩
      · cases h
    · cases h
  · cases h

/-! ## Offsets -/

theorem openingTagAt_of_readOpeningTag {tag : OpeningTag} {written : List Char}
    (h : readOpeningTag (written ++ rest) = some (tag, rest)) (before : List Char) :
    openingTagAt (String.ofList (before ++ written ++ rest)) (byteLength before) =
      some (tag, byteLength before + byteLength written) := by
  rw [openingTagAt, String.toList_ofList, List.append_assoc, Template.dropBytes?_append,
    Option.bind_some, h, Option.map_some]
  simp only [byteLength_append]
  congr 2
  omega

/-- A tag that is read at an offset is a stretch of the text from `<` to `>`. -/
theorem exists_of_openingTagAt {markup : String} {start stop : Nat} {tag : OpeningTag}
    (h : openingTagAt markup start = some (tag, stop)) :
    ∃ before inside behind, markup.toList = before ++ '<' :: inside ++ ['>'] ++ behind ∧
      start = byteLength before ∧ stop = byteLength (before ++ '<' :: inside ++ ['>']) := by
  obtain ⟨s, hs, h⟩ := Option.bind_eq_some_iff.1 h
  obtain ⟨before, hmarkup, hstart⟩ := exists_of_dropBytes? hs
  obtain ⟨⟨found, behind⟩, hread, heq⟩ := Option.map_eq_some_iff.1 h
  obtain ⟨rfl, rfl⟩ := Prod.mk.inj heq
  obtain ⟨inside, rfl⟩ := exists_of_readOpeningTag hread
  have hwhole : markup.toList = before ++ '<' :: inside ++ ['>'] ++ behind := by
    simp [hmarkup]
  refine ⟨before, inside, behind, hwhole, hstart.symm, ?_⟩
  rw [hwhole, byteLength_append, Nat.add_sub_cancel]

/-- **Tags and their offsets.** A tag that is written in a text is read at its offset, and reading goes
on behind its last character. Where a tag is read at all, a `<` stands at its offset and a `>` right
before the offset behind it. -/
theorem openingTagAt_written :
    (∀ {tag : OpeningTag} {written : List Char}, tag.Written written → ∀ before behind : List Char,
      openingTagAt (String.ofList (before ++ written ++ behind)) (byteLength before) =
        some (tag, byteLength before + byteLength written)) ∧
    (∀ {markup : String} {start stop : Nat} {tag : OpeningTag},
      openingTagAt markup start = some (tag, stop) →
        start < stop ∧ stop ≤ byteLength markup.toList ∧
        ∃ before inside behind, markup.toList = before ++ '<' :: inside ++ ['>'] ++ behind ∧
          start = byteLength before ∧ stop = byteLength (before ++ '<' :: inside ++ ['>'])) := by
  constructor
  · intro tag written hwritten before behind
    exact openingTagAt_of_readOpeningTag (readOpeningTag_written hwritten behind) before
  · intro markup start stop tag h
    obtain ⟨before, inside, behind, hmarkup, hstart, hstop⟩ := exists_of_openingTagAt h
    have hlast : byteLength ['>'] = 1 := rfl
    refine ⟨?_, ?_, before, inside, behind, hmarkup, hstart, hstop⟩
    · rw [hstart, hstop, byteLength_append, byteLength_append, hlast]
      omega
    · rw [hstop, hmarkup, byteLength_append _ behind]
      exact Nat.le_add_right _ _

/-- A tag with a line end in front of an attribute, names and values beyond ASCII, and a value that
looks like the end of the tag. -/
theorem openingTagAt_written_card :
    let tag : OpeningTag := ⟨"my-card", [⟨"título", some "a /> \"b\""⟩, ⟨"hidden", none⟩], true⟩
    tag.Written "<my-card\n título =  'a /> \"b\"' hidden />".toList ∧
      openingTagAt "é<my-card\n título =  'a /> \"b\"' hidden /></p>" 2 = some (tag, 43) ∧
      2 < 43 ∧ 43 ≤ byteLength "é<my-card\n título =  'a /> \"b\"' hidden /></p>".toList := by
  have hwritten : OpeningTag.Written
      ⟨"my-card", [⟨"título", some "a /> \"b\""⟩, ⟨"hidden", none⟩], true⟩
      "<my-card\n título =  'a /> \"b\"' hidden />".toList := by
    have hline : Blanks ['\n', ' '] := by decide
    have hspace : Blanks [' '] := by decide
    have hwide : Blanks [' ', ' '] := by decide
    have hquote : IsQuote '\x27' := .inr rfl
    have hattributes : Continues [⟨"título", some "a /> \"b\""⟩, ⟨"hidden", none⟩] true _ :=
      .quoted hline (by simp) (by decide) hspace hwide hquote (by decide)
        (.flag hspace (by simp) (by decide) (.selfClose hspace))
    exact ⟨by decide, _, hattributes, by decide +kernel⟩
  have hread := openingTagAt_written.1 hwritten ['é'] "</p>".toList
  obtain ⟨hlt, hle, -⟩ := openingTagAt_written.2 hread
  exact ⟨hwritten, hread, hlt, hle⟩

end StaticSite.Markup
