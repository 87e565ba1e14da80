import StaticSite.Proofs.TagsInUse

/-!
# Braces that are never closed

A template with two opening braces that are never closed is refused, and the refusal has an offset.
The offset counts in the text that was pending when the braces were met, which is the text behind the
last special tag without its comments (`Stretch`). So it is smaller than the place of the braces by
what stands up to that tag and by the comments behind it, and it is their place exactly if there is
neither a special tag nor a comment in front of them (`unclosed_offset`).

`Reads` is what the compiler keeps while it reads: how the pending text comes about from the
template.
-/

namespace StaticSite.Template

open Text Markup

variable {component : String} {dependencies : Dependencies}

/-! ## Stretches of a template -/

/-- A comment, which ends where it first can. -/
def IsComment (s : List Char) : Prop :=
  "<!--".toList <+: s ∧ ∃ inside, cut? "-->".toList s = some (inside, [])

/-- A text, and what is left of it when comments are taken out. What only looks like a comment, in a
tag for instance, may stay. -/
inductive Uncommented : List Char → List Char → Prop where
  /-- no text -/
  | nil : Uncommented [] []
  /-- a character that stays -/
  | keep (c : Char) {s text : List Char} (h : Uncommented s text) :
      Uncommented (c :: s) (c :: text)
  /-- a comment that is taken out -/
  | comment {comment s text : List Char} (hcomment : IsComment comment) (h : Uncommented s text) :
      Uncommented (comment ++ s) text

/-- A special tag stands at the start of a text, and the rest follows it. -/
def SpecialTag (dependencies : Dependencies) (s rest : List Char) : Prop :=
  (∃ tag, readOpeningTag s = some (tag, rest) ∧ isSpecial dependencies tag.name = true) ∨
    ∃ tag, closingTag? dependencies s = some (tag, rest)

/-- There are no special tags from `s` on up to `rest`, and `text` is what stands there without the
comments. -/
inductive Stretch (dependencies : Dependencies) : List Char → List Char → List Char → Prop where
  /-- nothing -/
  | nil (s : List Char) : Stretch dependencies s [] s
  /-- a character that starts no tag and no comment -/
  | char {c : Char} {s text rest : List Char} (hcomment : startsWith? "<!--".toList (c :: s) = none)
      (hopening : readOpeningTag (c :: s) = none)
      (hclosing : closingTag? dependencies (c :: s) = none)
      (h : Stretch dependencies s text rest) : Stretch dependencies (c :: s) (c :: text) rest
  /-- an opening tag that is not special -/
  | tag {tag : OpeningTag} {whole s text rest : List Char}
      (hread : readOpeningTag (whole ++ s) = some (tag, s))
      (hplain : isSpecial dependencies tag.name = false) (h : Stretch dependencies s text rest) :
      Stretch dependencies (whole ++ s) (whole ++ text) rest
  /-- a comment -/
  | comment {comment s text rest : List Char} (hcomment : IsComment comment)
      (h : Stretch dependencies s text rest) : Stretch dependencies (comment ++ s) text rest

/-- What ends a stretch: the end of the template, a special tag, or a comment without an end. -/
def EndsStretch (dependencies : Dependencies) (s : List Char) : Prop :=
  s = [] ∨ (∃ rest, SpecialTag dependencies s rest) ∨
    ("<!--".toList <+: s ∧ ¬ "-->".toList <:+: s)

/-- Two opening braces of a template that are never closed. -/
structure OpenBraces (dependencies : Dependencies) (template : List Char) where
  /-- what stands up to the end of the last special tag in front of them -/
  front : List Char
  /-- what stands behind that tag -/
  follows : List Char
  /-- what stands between that tag and the braces -/
  passed : List Char
  /-- the same without the comments -/
  text : List Char
  /-- the comments between the two braces -/
  gap : List Char
  /-- what stands behind them, up to the next special tag -/
  behind : List Char
  /-- the same without the comments -/
  inside : List Char
  /-- what stands from that tag on -/
  rest : List Char
  /-- the template is the front and what follows it -/
  template_eq : template = front ++ follows
  /-- the braces stand in what follows -/
  follows_eq : follows = passed ++ '\x7b' :: (gap ++ '\x7b' :: (behind ++ rest))
  /-- the front is a special tag with what stands in front of it, if there is one -/
  front_eq : front = [] ∨ ∃ before tag, front = before ++ tag ∧
    SpecialTag dependencies (tag ++ follows) follows
  /-- there is no special tag between the front and the rest -/
  stretch : Stretch dependencies follows (text ++ '\x7b' :: '\x7b' :: inside) rest
  /-- there is one at the rest, or the template ends -/
  rest_ends : EndsStretch dependencies rest
  /-- only comments are left out of the text in front of the braces -/
  passed_text : Uncommented passed text
  /-- there are only comments between them -/
  gap_empty : Uncommented gap []
  /-- only comments are left out of the text behind them -/
  behind_inside : Uncommented behind inside
  /-- there are no closing braces behind them -/
  not_closed : ¬ ['\x7d', '\x7d'] <:+: inside

/-- The place of the braces in the template, in bytes. -/
def OpenBraces.offset {template : List Char} (b : OpenBraces dependencies template) : Nat :=
  byteLength (b.front ++ b.passed)

/-- Two opening braces stand at an offset of a text. -/
def BracesAt (s : List Char) (offset : Nat) : Prop :=
  ∃ rest, dropBytes? offset s = some ('\x7b' :: '\x7b' :: rest)

/-! ## Texts without their comments -/

theorem Uncommented.append {s t text more : List Char} (hs : Uncommented s text)
    (ht : Uncommented t more) : Uncommented (s ++ t) (text ++ more) := by
  induction hs with
  | nil => exact ht
  | keep c _ ih => exact .keep c ih
  | comment hcomment _ ih =>
    rw [List.append_assoc]
    exact .comment hcomment ih

theorem Uncommented.self (s : List Char) : Uncommented s s := by
  induction s with
  | nil => exact .nil
  | cons c s ih => exact .keep c ih

/-- Each character that is left stands in the text, with comments in front of it at most. -/
theorem Uncommented.split {s before after : List Char} {c : Char}
    (h : Uncommented s (before ++ c :: after)) :
    ∃ front rest, s = front ++ c :: rest ∧ Uncommented front before ∧ Uncommented rest after := by
  generalize htext : before ++ c :: after = text at h
  induction h generalizing before with
  | nil => simp at htext
  | @keep d s text h ih =>
    rcases before with _ | ⟨e, before⟩
    · obtain ⟨rfl, rfl⟩ := List.cons.inj htext
      exact ⟨[], s, rfl, .nil, h⟩
    · obtain ⟨rfl, hmore⟩ := List.cons.inj htext
      obtain ⟨front, rest, rfl, hfront, hrest⟩ := ih hmore
      exact ⟨e :: front, rest, rfl, .keep e hfront, hrest⟩
  | @comment comment s text hcomment h ih =>
    obtain ⟨front, rest, rfl, hfront, hrest⟩ := ih htext
    exact ⟨comment ++ front, rest, (List.append_assoc ..).symm, .comment hcomment hfront, hrest⟩

theorem IsComment.ne_nil {s : List Char} (h : IsComment s) : s ≠ [] := by
  rintro rfl
  obtain ⟨t, ht⟩ := h.1
  cases ht

theorem eq_nil_of_byteLength {s : List Char} (h : byteLength s = 0) : s = [] := by
  rcases s with _ | ⟨c, s⟩
  · rfl
  · have hpos := c.utf8Size_pos
    rw [byteLength_cons] at h
    omega

/-- Where no comment is taken out the text is as long as before, and else it is shorter. -/
theorem Uncommented.byteLength_lt {s text : List Char} (h : Uncommented s text) :
    s = text ∨ byteLength text < byteLength s := by
  induction h with
  | nil => exact .inl rfl
  | keep c _ ih =>
    refine ih.imp (congrArg _) fun hlt => ?_
    rw [byteLength_cons, byteLength_cons]
    omega
  | @comment comment s text hcomment _ ih =>
    obtain ⟨c, t, rfl⟩ := List.exists_cons_of_ne_nil hcomment.ne_nil
    have hpos := c.utf8Size_pos
    right
    rw [byteLength_append, byteLength_cons]
    rcases ih with rfl | hlt <;> omega

/-! ## Going on in a stretch -/

namespace Stretch

variable {s t u text more : List Char}

theorem trans (hs : Stretch dependencies s text t) (ht : Stretch dependencies t more u) :
    Stretch dependencies s (text ++ more) u := by
  induction hs with
  | nil => exact ht
  | char hcomment hopening hclosing _ ih => exact .char hcomment hopening hclosing (ih ht)
  | tag hread hplain _ ih =>
    rw [List.append_assoc]
    exact .tag hread hplain (ih ht)
  | comment hcomment _ ih => exact .comment hcomment (ih ht)

/-- Only comments are left out of a stretch. -/
theorem exists_uncommented (h : Stretch dependencies s text t) :
    ∃ passed, s = passed ++ t ∧ Uncommented passed text := by
  induction h with
  | nil => exact ⟨[], rfl, .nil⟩
  | @char c s text t hcomment hopening hclosing h ih =>
    obtain ⟨passed, rfl, hpassed⟩ := ih
    exact ⟨c :: passed, rfl, .keep c hpassed⟩
  | @tag tag whole s text t hread hplain h ih =>
    obtain ⟨passed, rfl, hpassed⟩ := ih
    exact ⟨whole ++ passed, (List.append_assoc ..).symm, (Uncommented.self whole).append hpassed⟩
  | @comment comment s text t hcomment h ih =>
    obtain ⟨passed, rfl, hpassed⟩ := ih
    exact ⟨comment ++ passed, (List.append_assoc ..).symm, .comment hcomment hpassed⟩

end Stretch

/-! ## What the compiler keeps -/

/-- The compiler has come to a place in the template: behind the last special tag stands the text that
is pending, with comments at most. -/
def Reads (dependencies : Dependencies) (template : List Char) (b : Builder) (s : List Char) : Prop :=
  ∃ front follows, template = front ++ follows ∧
    (front = [] ∨ ∃ before tag, front = before ++ tag ∧
      SpecialTag dependencies (tag ++ follows) follows) ∧
    Stretch dependencies follows b.pending.reverse s

/-- The compiler cannot go on without splitting the pending text, and finds fault with it. -/
def StopsWith (component : String) (dependencies : Dependencies) (template : List Char)
    (e : RenderError) : Prop :=
  ∃ b s, Reads dependencies template b s ∧ EndsStretch dependencies s ∧
    b.flush component = .error e

section

variable {template s t rest : List Char} {b b' : Builder} {tag : OpeningTag} {name c : String}
  {o : Nat}

theorem suffix_of_specialTag (h : SpecialTag dependencies s rest) : rest <:+ s := by
  rcases h with ⟨tag, hread, -⟩ | ⟨tag, hclosing⟩
  · obtain ⟨c, t, -, -, -, hs⟩ := readOpeningTag_eq_some hread
    exact hs
  · exact suffix_of_closingTag? hclosing

theorem Reads.push (h : Reads dependencies template b s) {text : List Char}
    (hs : Stretch dependencies s text t) : Reads dependencies template (b.push text) t := by
  obtain ⟨front, follows, htemplate, hfront, hstretch⟩ := h
  refine ⟨front, follows, htemplate, hfront, ?_⟩
  rw [Builder.push, List.reverse_append, List.reverse_reverse]
  exact hstretch.trans hs

/-- Behind a special tag nothing is pending. -/
theorem Reads.behind_tag (h : Reads dependencies template b s)
    (hs : SpecialTag dependencies s rest) (hpending : b'.pending = []) :
    Reads dependencies template b' rest := by
  obtain ⟨front, follows, rfl, -, hstretch⟩ := h
  obtain ⟨passed, rfl, -⟩ := hstretch.exists_uncommented
  obtain ⟨tag, rfl⟩ := suffix_of_specialTag hs
  refine ⟨front ++ passed ++ tag, rest, by simp, .inr ⟨front ++ passed, tag, rfl, hs⟩, ?_⟩
  rw [hpending]
  exact .nil rest

theorem pending_of_flush (h : b.flush component = .ok b') : b'.pending = [] := by
  rw [Builder.flush] at h
  split at h
  · cases h
    rfl
  · cases h

theorem pending_of_enter (h : b.enter component dependencies tag = .ok b') : b'.pending = [] := by
  rw [Builder.enter] at h
  obtain ⟨b₁, hflush, h⟩ := bind_eq_ok h
  have hpending := pending_of_flush hflush
  dsimp only at h
  split at h <;> cases h <;> exact hpending

theorem pending_of_leave (h : b.leave component name = .ok b') : b'.pending = [] := by
  rw [Builder.leave] at h
  obtain ⟨b₁, hflush, h⟩ := bind_eq_ok h
  have hpending := pending_of_flush hflush
  split at h
  · cases h
  · split at h <;> cases h
    exact hpending

/-! ## Where it finds fault -/

theorem flush_of_enter {e : RenderError} (h : b.enter component dependencies tag = .error e) :
    b.flush component = .error e := by
  rw [Builder.enter] at h
  rcases bind_eq_error h with hflush | ⟨b₁, -, h⟩
  · exact hflush
  · dsimp only at h
    split at h <;> cases h

theorem flush_of_leave (h : b.leave component name = .error (.unclosedInterpolation c o)) :
    b.flush component = .error (.unclosedInterpolation c o) := by
  rw [Builder.leave] at h
  rcases bind_eq_error h with hflush | ⟨b₁, -, h⟩
  · exact hflush
  · split at h
    · cases h
    · split at h <;> cases h

theorem flush_of_finish (h : b.finish component = .error (.unclosedInterpolation c o)) :
    b.flush component = .error (.unclosedInterpolation c o) := by
  rw [Builder.finish] at h
  rcases bind_eq_error h with hflush | ⟨b₁, -, h⟩
  · exact hflush
  · split at h <;> cases h

/-- What starts like a comment and is cut behind its end is one. -/
theorem isComment_of_cut? {before : List Char} (hstart : (startsWith? "<!--".toList s).isSome = true)
    (hcut : cut? "-->".toList s = some (before, rest)) :
    ∃ comment, s = comment ++ rest ∧ IsComment comment := by
  obtain ⟨inside, hinside⟩ := Option.isSome_iff_exists.1 hstart
  have hs := cut?_eq_some hcut
  have hopen := startsWith?_eq_some.1 hinside
  have hend := cut?_append hcut []
  rw [List.append_nil] at hend
  refine ⟨before ++ "-->".toList, hs, ?_, before, hend⟩
  -- the two ends cannot be one and the same, so that the comment is long enough for both
  have hne : before ≠ [] := by
    rintro rfl
    rw [hopen] at hs
    cases hs
  have hleft : "<!--".toList <+: s := ⟨inside, hopen.symm⟩
  refine List.prefix_of_prefix_length_le hleft ⟨rest, hs.symm⟩ ?_
  have hlength := List.length_pos_iff.2 hne
  rw [List.length_append]
  change 4 ≤ before.length + 3
  omega

theorem stretch_of_ne (dependencies : Dependencies) {ch : Char} (h : ch ≠ '<') (s : List Char) :
    Stretch dependencies (ch :: s) [ch] s := by
  have hstart (start : List Char) : startsWith? ('<' :: start) (ch :: s) = none := by
    rw [startsWith?, if_neg (Ne.symm h)]
  refine .char (hstart _) ?_ ?_ (.nil s)
  · unfold readOpeningTag
    split
    · next heq => exact absurd (List.cons.inj heq).1 h
    · rfl
  · rw [closingTag?, hstart]
    rfl

/-- Only a slash behind `<` starts a closing tag. -/
theorem closingTag?_eq_none (dependencies : Dependencies) (h : t.head? ≠ some '/') :
    closingTag? dependencies ('<' :: t) = none := by
  rcases t with _ | ⟨d, t⟩
  · rfl
  · have hd : '/' ≠ d := fun heq => h (by rw [heq, List.head?_cons])
    rw [closingTag?, startsWith?, if_pos rfl, startsWith?, if_neg hd]
    rfl

/-- A closing tag is no opening tag. -/
theorem readOpeningTag_of_slash (h : t.head? = some '/') : readOpeningTag ('<' :: t) = none := by
  obtain ⟨t, rfl⟩ := List.head?_eq_some_iff.1 h
  rfl

/-- The compiler finds fault with pending text only. -/
theorem stops_of_build (hreads : Reads dependencies template b s)
    (h : (build component dependencies b s >>= Builder.finish component) =
      .error (.unclosedInterpolation c o)) :
    StopsWith component dependencies template (.unclosedInterpolation c o) := by
  fun_induction build component dependencies b s with
  | case1 b => exact ⟨b, [], hreads, .inl rfl, flush_of_finish h⟩
  | case2 b ch t hc ih => exact ih (hreads.push (stretch_of_ne dependencies hc t)) h
  | case3 b ch t hc hcomment before rest hcut ih =>
    obtain ⟨comment, heq, hcomment⟩ := isComment_of_cut? hcomment hcut
    rw [heq] at hreads
    exact ih (hreads.push (.comment hcomment (.nil rest))) h
  | case4 b ch t hc hcomment hcut =>
    refine ⟨b, ch :: t, hreads, .inr (.inr ⟨?_, fun hinfix => ?_⟩), flush_of_finish h⟩
    · obtain ⟨rest, hrest⟩ := Option.isSome_iff_exists.1 hcomment
      exact ⟨rest, (startsWith?_eq_some.1 hrest).symm⟩
    · obtain ⟨_, _, hend⟩ := exists_cut?_of_infix hinfix
      cases hcut.symm.trans hend
  | case5 b ch t hc hcomment hslash tag rest hclose b₁ hleave ih =>
    exact ih (hreads.behind_tag (.inr ⟨tag, hclose⟩) (pending_of_leave hleave)) h
  | case6 b ch t hc hcomment hslash tag rest hclose e hleave =>
    cases Except.error.inj h
    exact ⟨b, ch :: t, hreads, .inr (.inl ⟨rest, .inr ⟨tag, hclose⟩⟩), flush_of_leave hleave⟩
  | case7 b ch t hc hcomment hslash hclose ih =>
    obtain rfl := not_not.1 hc
    have hchar : Stretch dependencies ('<' :: t) ['<'] t :=
      .char (by simpa using hcomment) (readOpeningTag_of_slash hslash) hclose (.nil t)
    exact ih (hreads.push hchar) h
  | case8 b ch t hc hcomment hslash hread ih =>
    obtain rfl := not_not.1 hc
    have hchar : Stretch dependencies ('<' :: t) ['<'] t :=
      .char (by simpa using hcomment) hread (closingTag?_eq_none dependencies hslash) (.nil t)
    exact ih (hreads.push hchar) h
  | case9 b ch t hc hcomment hslash tag rest hread hspecial b₁ henter ih =>
    exact ih (hreads.behind_tag (.inl ⟨tag, hread, hspecial⟩) (pending_of_enter henter)) h
  | case10 b ch t hc hcomment hslash tag rest hread hspecial e henter =>
    cases Except.error.inj h
    exact ⟨b, ch :: t, hreads, .inr (.inl ⟨rest, .inl ⟨tag, hread, hspecial⟩⟩),
      flush_of_enter henter⟩
  | case11 b ch t hc hcomment hslash tag rest hread hspecial whole ih =>
    obtain ⟨-, -, -, -, -, hsuffix⟩ := readOpeningTag_eq_some hread
    obtain ⟨taken, htaken⟩ := hsuffix
    have hwhole : whole = taken := by
      change (ch :: t).take _ = taken
      rw [← htaken, List.length_append, Nat.add_sub_cancel, List.take_left]
    rw [← htaken] at hreads hread
    have htag : Stretch dependencies (taken ++ rest) (taken ++ []) rest :=
      .tag hread (Bool.eq_false_iff.2 hspecial) (.nil rest)
    rw [List.append_nil, ← hwhole] at htag
    exact ih (hreads.push (hwhole ▸ htag)) h

/-- Text with two opening braces that are never closed cannot be split, and its fault is the place of
the braces in it. -/
theorem splitText_eq_error {offset : Nat} (h : splitText offset s = .error o) :
    ∃ before inside, s = before ++ '\x7b' :: '\x7b' :: inside ∧ o = offset + byteLength before ∧
      ¬ ['\x7d', '\x7d'] <:+: inside := by
  fun_induction splitText offset s with
  | case1 => cases h
  | case2 offset s before inside hopen hnone =>
    cases h
    refine ⟨before, inside, by simpa using cut?_eq_some hopen, rfl, fun hinfix => ?_⟩
    obtain ⟨_, _, hclose⟩ := exists_cut?_of_infix hinfix
    exact absurd hclose (by rw [hnone]; simp)
  | case3 offset s before inside hopen source rest hclose next e hmore ih =>
    cases h
    obtain ⟨before', inside', rfl, rfl, hinside⟩ := ih hmore
    refine ⟨before ++ '\x7b' :: '\x7b' :: source ++ '\x7d' :: '\x7d' :: before', inside', ?_, ?_,
      hinside⟩
    · rw [cut?_eq_some hopen, cut?_eq_some hclose]
      simp
    · have hopening : '\x7b'.utf8Size = 1 := rfl
      have hclosing : '\x7d'.utf8Size = 1 := rfl
      simp only [byteLength_append, byteLength_cons, hopening, hclosing, next]
      omega
  | case4 => cases h

/-- Where the compiler finds fault there are braces that are never closed. -/
theorem exists_openBraces
    (h : StopsWith component dependencies template (.unclosedInterpolation c o)) :
    c = component ∧ ∃ braces : OpenBraces dependencies template, o = byteLength braces.text := by
  obtain ⟨b, rest, ⟨front, follows, htemplate, hfront, hstretch⟩, hrest, hflush⟩ := h
  rw [Builder.flush] at hflush
  split at hflush
  · cases hflush
  · next offset hsplit =>
    cases hflush
    obtain ⟨before, inside, hpending, hoffset, hopen⟩ := splitText_eq_error hsplit
    obtain ⟨whole, rfl, hwhole⟩ := hstretch.exists_uncommented
    rw [hpending] at hstretch hwhole
    obtain ⟨passed, more, rfl, hpassed, hmore⟩ := hwhole.split
    have hsecond : Uncommented more ([] ++ '\x7b' :: inside) := hmore
    obtain ⟨gap, behind, rfl, hgap, hbehind⟩ := hsecond.split
    refine ⟨rfl, ⟨front, _, passed, before, gap, behind, inside, rest, htemplate, ?_, hfront,
      hstretch, hrest, hpassed, hgap, hbehind, hopen⟩, by rw [hoffset, Nat.zero_add]⟩
    simp

end

/-! ## Where the braces stand -/

theorem dropBytes?_append (s t : List Char) : dropBytes? (byteLength s) (s ++ t) = some t := by
  induction s with
  | nil => rw [byteLength_nil, List.nil_append, dropBytes?]
  | cons c s ih =>
    have hpos := c.utf8Size_pos
    obtain ⟨n, hn⟩ : ∃ n, c.utf8Size + byteLength s = n + 1 :=
      ⟨c.utf8Size + byteLength s - 1, by omega⟩
    have hrest : n + 1 - c.utf8Size = byteLength s := by omega
    rw [List.cons_append, byteLength_cons, hn, dropBytes?, if_pos (by omega), hrest, ih]

namespace OpenBraces

variable {template : List Char} (braces : OpenBraces dependencies template)

theorem offset_eq : braces.offset = byteLength braces.front + byteLength braces.passed :=
  byteLength_append _ _

theorem text_le_offset : byteLength braces.text ≤ braces.offset := by
  rw [offset_eq]
  rcases braces.passed_text.byteLength_lt with heq | hlt
  · rw [heq]
    exact Nat.le_add_left _ _
  · omega

/-- Nothing is left out in front of the braces if there is no special tag and no comment. -/
theorem text_eq_offset : byteLength braces.text = braces.offset ↔
    braces.front = [] ∧ braces.passed = braces.text := by
  rw [offset_eq]
  constructor
  · intro heq
    rcases braces.passed_text.byteLength_lt with hpassed | hlt
    · refine ⟨eq_nil_of_byteLength ?_, hpassed⟩
      rw [hpassed] at heq
      omega
    · omega
  · rintro ⟨hfront, hpassed⟩
    rw [hfront, hpassed, byteLength_nil, Nat.zero_add]

/-- Without a comment between them the braces stand side by side. -/
theorem bracesAt (h : braces.gap = []) : BracesAt template braces.offset := by
  have htemplate := braces.template_eq
  rw [braces.follows_eq, h, ← List.append_assoc] at htemplate
  exact ⟨braces.behind ++ braces.rest,
    (congrArg (dropBytes? braces.offset) htemplate).trans (dropBytes?_append _ _)⟩

end OpenBraces

/-- **The offset of braces that are never closed.** It counts the text in front of them that is behind
the last special tag and in no comment. So it is at most the place of the braces, and that place
exactly if there is no special tag and no comment in front of them. -/
theorem unclosed_offset {template c : String} {o : Nat}
    (h : compile component dependencies template = .error (.unclosedInterpolation c o)) :
    c = component ∧ ∃ braces : OpenBraces dependencies template.toList,
      o = byteLength braces.text ∧ o ≤ braces.offset ∧
      (o = braces.offset ↔ braces.front = [] ∧ braces.passed = braces.text) ∧
      (braces.gap = [] → BracesAt template.toList braces.offset) := by
  have hstart : Reads dependencies template.toList {} template.toList :=
    ⟨[], template.toList, rfl, .inl rfl, .nil _⟩
  obtain ⟨rfl, braces, rfl⟩ := exists_openBraces (stops_of_build hstart h)
  exact ⟨rfl, braces, rfl, braces.text_le_offset, braces.text_eq_offset, braces.bracesAt⟩

theorem compile_eq_error {template : String} {e : RenderError}
    (h : (compile component dependencies template).map (fun _ => ()) = .error e) :
    compile component dependencies template = .error e := by
  rcases hcompile : compile component dependencies template with e' | nodes
  · rw [hcompile] at h
    exact congrArg Except.error (Except.error.inj h)
  · rw [hcompile] at h
    cases h

/-- Behind a comment of ten bytes the offset counts from its end. -/
theorem unclosed_offset_comment :
    compile "Page" [] "<!-- a -->b \x7b\x7b c" = .error (.unclosedInterpolation "Page" 2) ∧
      ∃ braces : OpenBraces [] "<!-- a -->b \x7b\x7b c".toList,
        2 = byteLength braces.text ∧ 2 ≤ braces.offset ∧
        (2 = braces.offset ↔ braces.front = [] ∧ braces.passed = braces.text) ∧
        (braces.gap = [] → BracesAt "<!-- a -->b \x7b\x7b c".toList braces.offset) := by
  have hcompile : compile "Page" [] "<!-- a -->b \x7b\x7b c" =
      .error (.unclosedInterpolation "Page" 2) := compile_eq_error (by decide +kernel)
  exact ⟨hcompile, (unclosed_offset hcompile).2⟩

/-- There need not be any braces at the offset: behind a slot it counts from the end of that. -/
theorem unclosed_offset_misses :
    ¬ ∀ (component : String) (dependencies : Dependencies) (template c : String) (o : Nat),
      compile component dependencies template = .error (.unclosedInterpolation c o) →
        BracesAt template.toList o := by
  intro h
  have hcompile : compile "Page" [] "<slot/>\x7b\x7b x" =
      .error (.unclosedInterpolation "Page" 0) := compile_eq_error (by decide +kernel)
  obtain ⟨rest, hrest⟩ := h _ _ _ _ _ hcompile
  rw [dropBytes?] at hrest
  cases hrest

end StaticSite.Template
