import Mathlib.Data.List.Basic
import StaticSite.Markup.OpeningTag

/-!
# Opening tags as they are written

An opening tag can be written in many ways: with any white space in front of its attributes, around
the equals signs and in front of its end, with either quote around a value, or with none.
`OpeningTag.Written` relates a tag to all these texts. Whatever stands behind such a text, the tag is
read back from it (`readOpeningTag_written`).
-/

namespace StaticSite.Markup

open Text

/-! ## The written forms -/

/-- Only white space. -/
def Blanks (s : List Char) : Prop := ∀ c ∈ s, isMarkupBlank c = true

theorem blanks_nil : Blanks [] := fun _ hc => absurd hc List.not_mem_nil

/-- The name of a tag: a name character, and then such ones, dashes, colons and dots. -/
def IsTagName (s : List Char) : Prop :=
  ∃ c t, s = c :: t ∧ isNameChar c = true ∧ ∀ d ∈ t, isTagChar d = true

/-- The name of an attribute, which is not empty. -/
def IsAttributeName (s : List Char) : Prop := s ≠ [] ∧ ∀ c ∈ s, isAttributeChar c = true

/-- A quote. -/
def IsQuote (c : Char) : Prop := c = '\x22' ∨ c = '\x27'

/-- A value that can be written without quotes. -/
def IsBare (s : List Char) : Prop :=
  ∃ c t, s = c :: t ∧ ¬IsQuote c ∧ ∀ d ∈ c :: t, isBareChar d = true

instance (s : List Char) : Decidable (Blanks s) :=
  decidable_of_iff (s.all isMarkupBlank = true) List.all_eq_true

instance : (s : List Char) → Decidable (IsTagName s)
  | [] => isFalse fun ⟨_, _, h, _⟩ => by cases h
  | c :: t => decidable_of_iff (isNameChar c = true ∧ t.all isTagChar = true)
      ⟨fun ⟨hc, ht⟩ => ⟨c, t, rfl, hc, List.all_eq_true.1 ht⟩,
        fun ⟨_, _, h, hc, ht⟩ => by cases h; exact ⟨hc, List.all_eq_true.2 ht⟩⟩

instance (s : List Char) : Decidable (IsAttributeName s) :=
  decidable_of_iff (s ≠ [] ∧ s.all isAttributeChar = true) (and_congr_right' List.all_eq_true)

instance (c : Char) : Decidable (IsQuote c) := inferInstanceAs (Decidable (_ ∨ _))

/-- The text of an opening tag behind its name: attributes, and whether it closes itself. -/
inductive Continues : List Attribute → Bool → List Char → Prop where
  /-- the end -/
  | close {gap : List Char} (hgap : Blanks gap) : Continues [] false (gap ++ ['>'])
  /-- the end of a tag that closes itself -/
  | selfClose {gap : List Char} (hgap : Blanks gap) : Continues [] true (gap ++ ['/', '>'])
  /-- an attribute without a value -/
  | flag {gap rest : List Char} {name : String} {more : List Attribute} {selfClosing : Bool}
      (hgap : Blanks gap) (hne : gap ≠ []) (hname : IsAttributeName name.toList)
      (hrest : Continues more selfClosing rest) :
      Continues (⟨name, none⟩ :: more) selfClosing (gap ++ name.toList ++ rest)
  /-- an attribute with its value in quotes -/
  | quoted {gap before after rest : List Char} {name value : String} {quote : Char}
      {more : List Attribute} {selfClosing : Bool} (hgap : Blanks gap) (hne : gap ≠ [])
      (hname : IsAttributeName name.toList) (hbefore : Blanks before) (hafter : Blanks after)
      (hquote : IsQuote quote) (hvalue : quote ∉ value.toList)
      (hrest : Continues more selfClosing rest) :
      Continues (⟨name, some value⟩ :: more) selfClosing
        (gap ++ name.toList ++ before ++ '=' :: after ++ quote :: value.toList ++ quote :: rest)
  /-- an attribute with a value without quotes, which no slash follows -/
  | bare {gap before after rest : List Char} {name value : String} {more : List Attribute}
      {selfClosing : Bool} (hgap : Blanks gap) (hne : gap ≠ [])
      (hname : IsAttributeName name.toList) (hbefore : Blanks before) (hafter : Blanks after)
      (hvalue : IsBare value.toList) (hslash : rest.head? ≠ some '/')
      (hrest : Continues more selfClosing rest) :
      Continues (⟨name, some value⟩ :: more) selfClosing
        (gap ++ name.toList ++ before ++ '=' :: after ++ value.toList ++ rest)

/-- How an opening tag can be written. -/
def OpeningTag.Written (tag : OpeningTag) (s : List Char) : Prop :=
  IsTagName tag.name.toList ∧
    ∃ rest, Continues tag.attributes tag.selfClosing rest ∧ s = '<' :: tag.name.toList ++ rest

theorem IsTagName.isTagChar {s : List Char} (h : IsTagName s) :
    ∀ c ∈ s, isTagChar c = true := by
  obtain ⟨c, t, rfl, hc, ht⟩ := h
  intro d hd
  rcases List.mem_cons.1 hd with rfl | hd
  · rw [Markup.isTagChar, hc]
    rfl
  · exact ht d hd

/-- A written tag starts with `<`, but neither like a comment nor like a closing tag. -/
theorem OpeningTag.Written.exists_cons {tag : OpeningTag} {s : List Char} (h : tag.Written s) :
    ∃ c t, s = '<' :: c :: t ∧ c ≠ '!' ∧ c ≠ '/' := by
  obtain ⟨⟨c, t, hname, hc, -⟩, rest, -, rfl⟩ := h
  refine ⟨c, t ++ rest, by rw [hname]; rfl, ?_, ?_⟩ <;>
  · rintro rfl
    exact absurd hc (by decide)

/-! ## Reading them -/

/-- Only an exclamation mark behind `<` starts a comment. -/
theorem startsWith?_comment {c : Char} (h : c ≠ '!') (s : List Char) :
    startsWith? "<!--".toList ('<' :: c :: s) = none := by
  rw [show "<!--".toList = ['<', '!', '-', '-'] from rfl, startsWith?, if_pos rfl, startsWith?,
    if_neg (Ne.symm h)]

theorem takeWhile_append_of_head {p : Char → Bool} {s t : List Char} (hs : ∀ c ∈ s, p c = true)
    (ht : ∀ c, t.head? = some c → p c = false) : (s ++ t).takeWhile p = s := by
  rw [List.takeWhile_append_of_pos hs]
  cases t with
  | nil => exact List.append_nil s
  | cons c t => rw [List.takeWhile_cons_of_neg (by simp [ht c rfl]), List.append_nil]

theorem dropWhile_append_of_head {p : Char → Bool} {s t : List Char} (hs : ∀ c ∈ s, p c = true)
    (ht : ∀ c, t.head? = some c → p c = false) : (s ++ t).dropWhile p = t := by
  rw [List.dropWhile_append_of_pos hs]
  cases t with
  | nil => rfl
  | cons c t => rw [List.dropWhile_cons_of_neg (by simp [ht c rfl])]

theorem isAttributeChar_eq {c : Char} : isAttributeChar c = true ↔
    isMarkupBlank c = false ∧ c ≠ '=' ∧ c ≠ '>' ∧ c ≠ '/' ∧ ¬IsQuote c := by
  simp [isAttributeChar, IsQuote, and_assoc]

theorem not_isAttributeChar_of_blank {c : Char} (h : isMarkupBlank c = true) :
    isAttributeChar c = false := by
  rw [isAttributeChar, h]
  rfl

theorem not_isMarkupBlank_of_isQuote {c : Char} (h : IsQuote c) : isMarkupBlank c = false := by
  rcases h with rfl | rfl <;> decide

/-- What ends the name of a tag has no place in it. -/
theorem not_isTagChar_of_end {c : Char} (h : isMarkupBlank c = true ∨ c = '>' ∨ c = '/') :
    isTagChar c = false := by
  rcases h with h | rfl | rfl
  · simp only [isMarkupBlank, Bool.or_eq_true, beq_iff_eq] at h
    rcases h with (((rfl | rfl) | rfl) | rfl) | rfl <;> decide
  · decide
  · decide

/-- An attribute starts with a character of its name. -/
theorem IsAttributeName.exists_cons {s : List Char} (h : IsAttributeName s) :
    ∃ c t, s = c :: t ∧ isAttributeChar c = true := by
  obtain ⟨hne, hs⟩ := h
  obtain ⟨c, t, rfl⟩ := List.exists_cons_of_ne_nil hne
  exact ⟨c, t, rfl, hs c List.mem_cons_self⟩

/-- The text behind an attribute starts with white space or with the end of the tag. -/
theorem Continues.head {as : List Attribute} {selfClosing : Bool} {s : List Char}
    (h : Continues as selfClosing s) :
    ∃ c t, s = c :: t ∧ (isMarkupBlank c = true ∨ c = '>' ∨ c = '/') := by
  have hstart {gap : List Char} (hgap : Blanks gap) (hne : gap ≠ []) (t : List Char) :
      ∃ c u, gap ++ t = c :: u ∧ (isMarkupBlank c = true ∨ c = '>' ∨ c = '/') := by
    obtain ⟨c, u, rfl⟩ := List.exists_cons_of_ne_nil hne
    exact ⟨c, u ++ t, rfl, .inl (hgap c List.mem_cons_self)⟩
  cases h with
  | @close gap hgap =>
    rcases gap with _ | ⟨c, gap⟩
    · exact ⟨'>', [], rfl, .inr (.inl rfl)⟩
    · exact hstart hgap (List.cons_ne_nil _ _) _
  | @selfClose gap hgap =>
    rcases gap with _ | ⟨c, gap⟩
    · exact ⟨'/', ['>'], rfl, .inr (.inr rfl)⟩
    · exact hstart hgap (List.cons_ne_nil _ _) _
  | flag hgap hne => simpa only [List.append_assoc] using hstart hgap hne _
  | quoted hgap hne => simpa only [List.append_assoc] using hstart hgap hne _
  | bare hgap hne => simpa only [List.append_assoc] using hstart hgap hne _

/-- The name of an attribute, or its value without quotes, ends where the attribute does. -/
theorem Continues.head_append {as : List Attribute} {selfClosing : Bool} {s : List Char}
    (h : Continues as selfClosing s) (behind : List Char) :
    ∀ c, (s ++ behind).head? = some c → isAttributeChar c = false := by
  obtain ⟨c, t, rfl, hc⟩ := h.head
  rintro d ⟨⟩
  rcases hc with hc | rfl | rfl
  · exact not_isAttributeChar_of_blank hc
  · decide
  · decide

/-- Behind white space, an attribute's name starts. -/
theorem dropWhile_name {gap name : List Char} (hgap : Blanks gap) (hname : IsAttributeName name)
    (rest : List Char) : (gap ++ (name ++ rest)).dropWhile isMarkupBlank = name ++ rest := by
  obtain ⟨c, t, rfl, hc⟩ := hname.exists_cons
  exact dropWhile_append_of_head hgap fun d hd => by
    cases hd
    exact (isAttributeChar_eq.1 hc).1

/-- There is no equals sign behind an attribute that has come to its end. -/
theorem Continues.not_equals {as : List Attribute} {selfClosing : Bool} {s : List Char}
    (h : Continues as selfClosing s) (more : List Char) :
    ((s ++ more).dropWhile isMarkupBlank).head? ≠ some '=' := by
  have hattribute {gap name : List Char} (hgap : Blanks gap) (hname : IsAttributeName name)
      (rest : List Char) :
      ((gap ++ (name ++ rest)).dropWhile isMarkupBlank).head? ≠ some '=' := by
    rw [dropWhile_name hgap hname]
    obtain ⟨c, t, rfl, hc⟩ := hname.exists_cons
    intro heq
    exact (isAttributeChar_eq.1 hc).2.1 (Option.some.inj heq)
  cases h with
  | close hgap =>
    rw [List.append_assoc, dropWhile_append_of_head hgap (by simp; decide)]
    simp
  | selfClose hgap =>
    rw [List.append_assoc, dropWhile_append_of_head hgap (by simp; decide)]
    simp
  | flag hgap _ hname => simpa only [List.append_assoc] using hattribute hgap hname _
  | quoted hgap _ hname => simpa only [List.append_assoc] using hattribute hgap hname _
  | bare hgap _ hname => simpa only [List.append_assoc] using hattribute hgap hname _

theorem readAttributeValue_quoted {gap value : List Char} {quote : Char} (hgap : Blanks gap)
    (hquote : IsQuote quote) (hvalue : quote ∉ value) (rest : List Char) :
    readAttributeValue (gap ++ quote :: (value ++ quote :: rest)) = some (value, rest) := by
  have hstart := dropWhile_append_of_head (t := quote :: (value ++ quote :: rest)) hgap
    fun c hc => by
      cases hc
      exact not_isMarkupBlank_of_isQuote hquote
  rw [readAttributeValue, hstart]
  dsimp only
  rw [if_pos (show quote = '\x22' ∨ quote = '\x27' from hquote)]
  exact cut?_of_notMem hvalue [] rest

theorem readAttributeValue_bare {gap value : List Char} (hgap : Blanks gap) (hvalue : IsBare value)
    {rest : List Char} (hrest : ∀ c, rest.head? = some c → isBareChar c = false) :
    readAttributeValue (gap ++ (value ++ rest)) = some (value, rest) := by
  obtain ⟨c, t, rfl, hquote, hchars⟩ := hvalue
  have hblank : isMarkupBlank c = false := by
    have hc := hchars c List.mem_cons_self
    rw [isBareChar] at hc
    simp_all
  have hstart := dropWhile_append_of_head (t := c :: t ++ rest) hgap fun d hd => by
    cases hd
    exact hblank
  rw [readAttributeValue, hstart, List.cons_append]
  dsimp only
  rw [if_neg (show ¬(c = '\x22' ∨ c = '\x27') from hquote), ← List.cons_append,
    takeWhile_append_of_head hchars hrest, dropWhile_append_of_head hchars hrest]

/-- An attribute with a value is read as its value is. -/
theorem readAttribute_value {name before : List Char} (hname : IsAttributeName name)
    (hbefore : Blanks before) (rest : List Char) :
    readAttribute (name ++ (before ++ '=' :: rest)) =
      (readAttributeValue rest).map fun (value, r) =>
        (⟨String.ofList name, some (String.ofList value)⟩, r) := by
  have hend : ∀ c, (before ++ '=' :: rest).head? = some c → isAttributeChar c = false := by
    rcases before with _ | ⟨d, before⟩
    · rintro c ⟨⟩
      decide
    · rintro c ⟨⟩
      exact not_isAttributeChar_of_blank (hbefore _ List.mem_cons_self)
  have heq := dropWhile_append_of_head (t := '=' :: rest) hbefore (by simp; decide)
  obtain ⟨c, t, hcons, -⟩ := hname.exists_cons
  rw [readAttribute, takeWhile_append_of_head hname.2 hend, dropWhile_append_of_head hname.2 hend,
    hcons]
  dsimp only
  rw [heq]
  rfl

theorem readAttribute_flag {name rest : List Char} (hname : IsAttributeName name)
    (hend : ∀ c, rest.head? = some c → isAttributeChar c = false)
    (hequals : (rest.dropWhile isMarkupBlank).head? ≠ some '=') :
    readAttribute (name ++ rest) = some (⟨String.ofList name, none⟩, rest) := by
  obtain ⟨c, t, hcons, -⟩ := hname.exists_cons
  rw [readAttribute, takeWhile_append_of_head hname.2 hend, dropWhile_append_of_head hname.2 hend,
    hcons]
  dsimp only
  split
  · next hrest =>
    rw [hrest] at hequals
    exact absurd rfl hequals
  · rfl

/-- An attribute is read with the attributes behind it. -/
theorem readAttributes_attribute {gap name rest behind : List Char} {a : Attribute}
    (hgap : Blanks gap) (hname : IsAttributeName name)
    (ha : readAttribute (name ++ rest) = some (a, behind)) :
    readAttributes (gap ++ (name ++ rest)) =
      match readAttributes behind with
      | none => none
      | some (more, selfClosing, r) => some (a :: more, selfClosing, r) := by
  have hdrop := dropWhile_name hgap hname rest
  obtain ⟨c, t, rfl, hc⟩ := hname.exists_cons
  obtain ⟨-, -, hclose, hslash, -⟩ := isAttributeChar_eq.1 hc
  rw [List.cons_append] at hdrop ha ⊢
  rw [readAttributes]
  split
  · next hs => cases hdrop.symm.trans hs
  · next hs => exact absurd (List.cons.inj (hdrop.symm.trans hs)).1 hclose
  · next hs => exact absurd (List.cons.inj (hdrop.symm.trans hs)).1 hslash
  · rw [hdrop]
    split
    · next ha' => cases ha.symm.trans ha'
    · next ha' =>
      cases ha.symm.trans ha'
      rfl

theorem readAttributes_close {gap : List Char} (hgap : Blanks gap) (rest : List Char) :
    readAttributes (gap ++ '>' :: rest) = some ([], false, rest) := by
  have hdrop := dropWhile_append_of_head (t := '>' :: rest) hgap (by simp; decide)
  rw [readAttributes]
  split
  · next hs => cases hdrop.symm.trans hs
  · next hs =>
    cases hdrop.symm.trans hs
    rfl
  · next hs => cases hdrop.symm.trans hs
  · next hclose _ => exact absurd hdrop (hclose rest)

theorem readAttributes_selfClose {gap : List Char} (hgap : Blanks gap) (rest : List Char) :
    readAttributes (gap ++ '/' :: '>' :: rest) = some ([], true, rest) := by
  have hdrop := dropWhile_append_of_head (t := '/' :: '>' :: rest) hgap (by simp; decide)
  rw [readAttributes]
  split
  · next hs => cases hdrop.symm.trans hs
  · next hs => cases hdrop.symm.trans hs
  · next hs =>
    cases hdrop.symm.trans hs
    rfl
  · next hclose => exact absurd hdrop (hclose rest)

/-- The rest of a written tag is read back, whatever stands behind it. -/
theorem readAttributes_continues {as : List Attribute} {selfClosing : Bool} {s : List Char}
    (h : Continues as selfClosing s) (behind : List Char) :
    readAttributes (s ++ behind) = some (as, selfClosing, behind) := by
  induction h with
  | close hgap =>
    rw [List.append_assoc]
    exact readAttributes_close hgap behind
  | selfClose hgap =>
    rw [List.append_assoc]
    exact readAttributes_selfClose hgap behind
  | @flag gap rest name more selfClosing hgap hne hname hrest ih =>
    have ha := readAttribute_flag hname (hrest.head_append behind) (hrest.not_equals behind)
    rw [List.append_assoc, List.append_assoc, readAttributes_attribute hgap hname ha, ih,
      String.ofList_toList]
  | @quoted gap before after rest name value quote more selfClosing hgap hne hname hbefore hafter
      hquote hvalue hrest ih =>
    have hv := readAttributeValue_quoted hafter hquote hvalue (rest ++ behind)
    have ha := readAttribute_value hname hbefore
      (after ++ quote :: (value.toList ++ quote :: (rest ++ behind)))
    rw [hv] at ha
    have hread := readAttributes_attribute hgap hname ha
    rw [ih, String.ofList_toList, String.ofList_toList] at hread
    simpa only [List.append_assoc, List.cons_append] using hread
  | @bare gap before after rest name value more selfClosing hgap hne hname hbefore hafter hvalue
      hslash hrest ih =>
    have hend : ∀ c, (rest ++ behind).head? = some c → isBareChar c = false := by
      obtain ⟨c, t, rfl, hc⟩ := hrest.head
      rintro d ⟨⟩
      rcases hc with hc | rfl | rfl
      · rw [isBareChar, hc]
        rfl
      · decide
      · exact absurd rfl hslash
    have hv := readAttributeValue_bare hafter hvalue hend
    have ha := readAttribute_value hname hbefore (after ++ (value.toList ++ (rest ++ behind)))
    rw [hv] at ha
    have hread := readAttributes_attribute hgap hname ha
    rw [ih, String.ofList_toList, String.ofList_toList] at hread
    simpa only [List.append_assoc, List.cons_append] using hread

/-- A written tag is read back, whatever stands behind it. -/
theorem readOpeningTag_written {tag : OpeningTag} {s : List Char} (h : tag.Written s)
    (behind : List Char) : readOpeningTag (s ++ behind) = some (tag, behind) := by
  obtain ⟨⟨c, t, hname, hc, ht⟩, rest, hrest, rfl⟩ := h
  have hend : ∀ d, (rest ++ behind).head? = some d → isTagChar d = false := by
    obtain ⟨d, u, rfl, hd⟩ := hrest.head
    rintro e ⟨⟩
    exact not_isTagChar_of_end hd
  rw [hname, List.append_assoc, List.cons_append, List.cons_append, readOpeningTag, if_pos hc,
    takeWhile_append_of_head ht hend, dropWhile_append_of_head ht hend,
    readAttributes_continues hrest]
  dsimp only
  rw [← hname, String.ofList_toList]

end StaticSite.Markup
