import Mathlib.Data.List.Infix
import StaticSite.Component.Blocks
import StaticSite.Proofs.OpeningTags

/-!
# Component files as they are written

A component file is written as pieces one behind another: blocks, and between them text without `<`
or comments. `Piece` has all these, with what a body must not hold so that its block does not end
inside it. However the pieces are mixed, reading the file gives back its blocks in order
(`topLevel_written`), and so the template, the script and the style sheets (`parse_written`).

The reader looks for the closing tag of a block anywhere behind the opening one. What it looks for has
no `<` behind its first character, so in a body with a closing tag behind it nothing is found that
reaches into the closing tag (`startsWithFolded?_within`).
-/

namespace StaticSite.Blocks

open Text Markup

/-! ## Written files -/

/-- Whether a text can stand in a block of a kind. A template does not have the word at all; any other
body has no closing tag of its block. -/
def IsBody (kind body : List Char) : Prop :=
  if kind = "template".toList then ¬ "template".toList <:+: lower body
  else ∀ c ∈ ['>', ' ', '\t', '\r', '\n'], ¬ '<' :: '/' :: kind ++ [c] <:+: lower body

instance (kind body : List Char) : Decidable (IsBody kind body) :=
  have := List.decidableBAll (fun c => ¬ '<' :: '/' :: kind ++ [c] <:+: lower body)
    ['>', ' ', '\t', '\r', '\n']
  inferInstanceAs (Decidable (if kind = "template".toList then ¬ _ <:+: lower body
    else ∀ c ∈ ['>', ' ', '\t', '\r', '\n'], ¬ '<' :: '/' :: kind ++ [c] <:+: lower body))

/-- A block as it is written. -/
structure WrittenBlock where
  /-- the opening tag -/
  tag : OpeningTag
  /-- the text of the opening tag -/
  opening : List Char
  /-- the text up to the closing tag -/
  body : List Char
  /-- the name in the closing tag, as it is spelled -/
  closing : List Char
  /-- the opening tag is written so -/
  written : tag.Written opening
  /-- the opening tag does not close itself -/
  opens : tag.selfClosing = false
  /-- the closing tag has the same name, in any letter case -/
  closes : lower closing = lower tag.name.toList
  /-- the block does not end in its body -/
  isBody : IsBody (lower tag.name.toList) body

/-- The text of a block. -/
def WrittenBlock.chars (b : WrittenBlock) : List Char :=
  b.opening ++ (b.body ++ '<' :: '/' :: (b.closing ++ ['>']))

/-- The block that is written. -/
def WrittenBlock.block (b : WrittenBlock) : Block := ⟨b.tag, String.ofList (trim b.body)⟩

/-- A part of a component file. -/
inductive Piece where
  /-- text between blocks -/
  | text (s : List Char) (h : '<' ∉ s)
  /-- a comment, which ends where it first can -/
  | comment (s : List Char) (hstart : "<!--".toList <+: s) (hend : "-->".toList <:+ s)
      (hfirst : ¬ "-->".toList <:+: s.dropLast)
  /-- a block -/
  | block (b : WrittenBlock)

/-- The text of a part. -/
def Piece.chars : Piece → List Char
  | .text s _ | .comment s _ _ _ => s
  | .block b => b.chars

/-- The block that a part is, if it is one. -/
def Piece.block? : Piece → Option Block
  | .text .. | .comment .. => none
  | .block b => some b.block

/-- The text of a component file. -/
def written (pieces : List Piece) : List Char := pieces.flatMap Piece.chars

/-- The blocks of a component file. -/
def blocksOf (pieces : List Piece) : List Block := pieces.filterMap Piece.block?

/-- Whether a block has a name, which is given in lower case. -/
def Block.isNamed (name : String) (b : Block) : Bool := b.kind == name.toList

/-- The style sheet of a style block, with the value of its first attribute `lang`. -/
def Block.style (b : Block) : StyleBlock :=
  ⟨b.body, (b.tag.attributes.find? fun a => lower a.name.toList = "lang".toList).bind (·.value?)⟩

/-! ## Names in any letter case -/

theorem toLower_eq_angle {c : Char} : c.toLower = '<' ↔ c = '<' := by
  constructor
  · intro h
    change (if hupper : c.val ≥ 'A'.val ∧ c.val ≤ 'Z'.val then _ else c) = _ at h
    split at h
    · next hupper =>
      have hcode : (c.val.toNat + 32) % 2 ^ 32 = 60 := congrArg (·.val.toNat) h
      have hfirst : 65 ≤ c.val.toNat := UInt32.le_iff_toNat_le.1 hupper.1
      have hlast : c.val.toNat ≤ 90 := UInt32.le_iff_toNat_le.1 hupper.2
      omega
    · exact h
  · rintro rfl
    rfl

theorem angle_mem_lower {s : List Char} : '<' ∈ lower s ↔ '<' ∈ s := by
  simp only [lower, List.mem_map, toLower_eq_angle, exists_eq_right]

theorem mem_of_endsCloseName {c : Char} (h : endsCloseName c = true) :
    c ∈ ['>', ' ', '\t', '\r', '\n'] := by
  simpa [endsCloseName, or_assoc] using h

theorem toLower_of_endsCloseName {c : Char} (h : endsCloseName c = true) : c.toLower = c := by
  simp only [endsCloseName, Bool.or_eq_true, beq_iff_eq] at h
  rcases h with (((rfl | rfl) | rfl) | rfl) | rfl <;> rfl

theorem startsWithFolded?_eq_some {start s rest : List Char} :
    startsWithFolded? start s = some rest ↔
      ∃ spelled, lower spelled = start ∧ s = spelled ++ rest := by
  induction start generalizing s with
  | nil => simp [startsWithFolded?, lower]
  | cons p ps ih =>
    cases s with
    | nil => simp [startsWithFolded?, lower]
    | cons c s =>
      rw [startsWithFolded?]
      split
      · next hp =>
        rw [ih]
        constructor
        · rintro ⟨spelled, rfl, rfl⟩
          exact ⟨c :: spelled, by rw [lower, List.map_cons, ← hp]; rfl, rfl⟩
        · rintro ⟨spelled, hspelled, hs⟩
          cases spelled with
          | nil => cases hspelled
          | cons d spelled =>
            cases hs
            exact ⟨spelled, (List.cons.inj hspelled).2, rfl⟩
      · next hp =>
        refine iff_of_false (by simp) ?_
        rintro ⟨spelled, hspelled, hs⟩
        cases spelled with
        | nil => cases hspelled
        | cons d spelled =>
          cases hs
          exact hp (List.cons.inj hspelled).1.symm

/-- What starts with `<` and has no other one is found only in front of the next `<`. -/
theorem startsWithFolded?_within {start s t rest : List Char} (hstart : '<' ∉ start) (hs : s ≠ [])
    (h : startsWithFolded? ('<' :: start) (s ++ '<' :: t) = some rest) :
    ∃ spelled inside, lower spelled = '<' :: start ∧ s = spelled ++ inside ∧
      rest = inside ++ '<' :: t := by
  obtain ⟨spelled, hlower, hsplit⟩ := startsWithFolded?_eq_some.1 h
  rcases List.append_eq_append_iff.1 hsplit with ⟨more, hspelled, ht⟩ | ⟨inside, hinside, hrest⟩
  · cases more with
    | nil => exact ⟨spelled, [], hlower, by simpa using hspelled.symm, ht.symm⟩
    | cons d more =>
      -- the spelling would have a second `<`
      obtain ⟨rfl, -⟩ := List.cons.inj ht
      obtain ⟨c, s, rfl⟩ := List.exists_cons_of_ne_nil hs
      rw [hspelled] at hlower
      obtain ⟨-, hlower⟩ := List.cons.inj hlower
      refine absurd ?_ hstart
      rw [← hlower]
      exact angle_mem_lower.2 (List.mem_append_right _ List.mem_cons_self)
  · exact ⟨spelled, inside, hlower, hinside, hrest⟩

/-- Nothing that holds the word is found in a text without it. -/
theorem startsWithFolded?_eq_none {start word s t : List Char} (hstart : '<' ∉ start)
    (hword : word <:+: start) (hne : s ≠ []) (hs : ¬word <:+: lower s) :
    startsWithFolded? ('<' :: start) (s ++ '<' :: t) = none := by
  rw [Option.eq_none_iff_forall_ne_some]
  intro r hr
  obtain ⟨spelled, inside, hspelled, rfl, -⟩ := startsWithFolded?_within hstart hne hr
  have hinfix : lower spelled <:+: lower (spelled ++ inside) :=
    ⟨[], lower inside, by rw [lower, lower, lower, List.map_append, List.nil_append]⟩
  rw [hspelled] at hinfix
  exact hs ((List.infix_cons hword).trans hinfix)

/-! ## The ends of blocks -/

section

variable {kind closing body : List Char}

/-- A block that is no template ends in front of its closing tag. -/
theorem cutClosing?_written (hkind : '<' ∉ kind) (hclosing : lower closing = kind)
    (hbody : ∀ c ∈ ['>', ' ', '\t', '\r', '\n'], ¬ '<' :: '/' :: kind ++ [c] <:+: lower body)
    (rest : List Char) :
    cutClosing? kind (body ++ '<' :: '/' :: (closing ++ '>' :: rest)) = some (body, rest) := by
  induction body with
  | nil =>
    have hstart : startsWithFolded? ('<' :: '/' :: kind)
        ('<' :: '/' :: (closing ++ '>' :: rest)) = some ('>' :: rest) :=
      startsWithFolded?_eq_some.2 ⟨'<' :: '/' :: closing, by rw [← hclosing]; rfl, rfl⟩
    have hname : closeNameAt? kind ('<' :: '/' :: (closing ++ '>' :: rest)) = some ('>' :: rest) := by
      rw [closeNameAt?, hstart]
      rfl
    rw [List.nil_append, cutClosing?, hname]
    rfl
  | cons c body ih =>
    have hnone : closeNameAt? kind (c :: body ++ '<' :: '/' :: (closing ++ '>' :: rest)) = none := by
      rw [Option.eq_none_iff_forall_ne_some]
      intro r hr
      obtain ⟨hstart, hend⟩ := Option.filter_eq_some_iff.1 hr
      have hslash : '<' ∉ '/' :: kind := by simpa using hkind
      obtain ⟨spelled, inside, hspelled, hbody', rfl⟩ :=
        startsWithFolded?_within hslash (List.cons_ne_nil c body) hstart
      -- the name ends inside the body, as no `<` ends it
      cases inside with
      | nil => exact absurd hend Bool.false_ne_true
      | cons d inside =>
        have hd : endsCloseName d = true := hend
        refine hbody d (mem_of_endsCloseName hd) ⟨[], lower inside, ?_⟩
        rw [hbody', ← hspelled, lower, lower, lower, List.map_append, List.map_cons,
          toLower_of_endsCloseName hd]
        simp
    have hmore := ih fun d hd hinfix => hbody d hd (List.infix_cons hinfix)
    rw [List.cons_append] at hnone ⊢
    rw [cutClosing?, hnone, hmore]
    rfl

/-- A template ends in front of its closing tag. -/
theorem cutTemplate?_written (hclosing : lower closing = "template".toList)
    (hbody : ¬ "template".toList <:+: lower body) (rest : List Char) :
    cutTemplate? 0 (body ++ '<' :: '/' :: (closing ++ '>' :: rest)) = some (body, rest) := by
  induction body with
  | nil =>
    have hstart : startsWithFolded? "</template".toList
        ('<' :: '/' :: (closing ++ '>' :: rest)) = some ('>' :: rest) :=
      startsWithFolded?_eq_some.2 ⟨'<' :: '/' :: closing, by
        rw [lower, List.map_cons, List.map_cons, ← lower, hclosing]; rfl, rfl⟩
    have htag : templateTagAt? ('<' :: '/' :: (closing ++ '>' :: rest)) =
        some (.closing, '>' :: rest) := by
      rw [templateTagAt?]
      dsimp only
      rw [hstart]
      rfl
    rw [List.nil_append, cutTemplate?]
    split
    · next hnone => cases htag.symm.trans hnone
    · next hsome =>
      cases htag.symm.trans hsome
      split
      · next hcut => cases hcut
      · next hcut =>
        cases hcut
        rfl
  | cons c body ih =>
    have htag : templateTagAt? (c :: body ++ '<' :: '/' :: (closing ++ '>' :: rest)) = none := by
      have hclose : startsWithFolded? "</template".toList
          (c :: body ++ '<' :: '/' :: (closing ++ '>' :: rest)) = none :=
        startsWithFolded?_eq_none (by decide) (List.infix_cons (List.infix_refl _))
          (List.cons_ne_nil c body) hbody
      have hopen : startsWithFolded? "<template".toList
          (c :: body ++ '<' :: '/' :: (closing ++ '>' :: rest)) = none :=
        startsWithFolded?_eq_none (by decide) (List.infix_refl _) (List.cons_ne_nil c body) hbody
      rw [templateTagAt?]
      dsimp only
      rw [hclose, hopen]
      rfl
    have hmore := ih fun hinfix => hbody (List.infix_cons hinfix)
    rw [List.cons_append] at htag ⊢
    rw [cutTemplate?]
    split
    · rw [hmore]
      rfl
    · next hsome => cases htag.symm.trans hsome

/-- A block ends in front of its closing tag. -/
theorem cutBody?_written (b : WrittenBlock) (rest : List Char) :
    cutBody? (lower b.tag.name.toList)
        (b.body ++ '<' :: '/' :: (b.closing ++ '>' :: rest)) = some (b.body, rest) := by
  have hbody := b.isBody
  rw [IsBody] at hbody
  rw [cutBody?]
  split
  · next htemplate =>
    rw [if_pos htemplate] at hbody
    exact cutTemplate?_written (b.closes.trans htemplate) hbody rest
  · next hother =>
    rw [if_neg hother] at hbody
    have hname : '<' ∉ b.tag.name.toList := fun h =>
      absurd (b.written.1.isTagChar _ h) (by decide)
    exact cutClosing?_written (mt angle_mem_lower.1 hname) b.closes hbody rest

end

/-! ## The blocks of a file -/

/-- Text between blocks is read over. -/
theorem topLevel_text {s : List Char} (h : '<' ∉ s) (rest : List Char) :
    topLevel (s ++ rest) = topLevel rest := by
  induction s with
  | nil => rfl
  | cons c s ih =>
    rw [List.mem_cons, not_or] at h
    rw [List.cons_append, topLevel, if_pos (Ne.symm h.1), ih h.2]

/-- A comment is read over, up to its first end. -/
theorem topLevel_comment {s : List Char} (hstart : "<!--".toList <+: s) (hend : "-->".toList <:+ s)
    (hfirst : ¬ "-->".toList <:+: s.dropLast) (rest : List Char) :
    topLevel (s ++ rest) = topLevel rest := by
  obtain ⟨before, hcut⟩ := cut?_of_suffix hend hfirst
  have hsplit := cut?_eq_some hcut
  have hcut := cut?_append hcut rest
  rw [List.append_nil] at hsplit
  rw [← hsplit] at hcut
  obtain ⟨inside, rfl⟩ := hstart
  change cut? "-->".toList ('<' :: '!' :: '-' :: '-' :: (inside ++ rest)) = _ at hcut
  change topLevel ('<' :: '!' :: '-' :: '-' :: (inside ++ rest)) = _
  have hopen : startsWith? "<!--".toList ('<' :: '!' :: '-' :: '-' :: (inside ++ rest)) =
      some (inside ++ rest) := startsWith?_eq_some.2 rfl
  rw [topLevel, if_neg (not_not_intro rfl), hopen, if_pos Option.isSome_some]
  split
  · next hsome =>
    cases hcut.symm.trans hsome
    rfl
  · next hnone => cases hcut.symm.trans hnone

/-- A block is read up to the end of its closing tag. -/
theorem topLevel_block (b : WrittenBlock) (rest : List Char) :
    topLevel (b.chars ++ rest) = .ok b.block :: topLevel rest := by
  have hread := readOpeningTag_written b.written
    (b.body ++ '<' :: '/' :: (b.closing ++ '>' :: rest))
  have hbody := cutBody?_written b rest
  have hchars : b.chars ++ rest =
      b.opening ++ (b.body ++ '<' :: '/' :: (b.closing ++ '>' :: rest)) := by
    simp [WrittenBlock.chars]
  obtain ⟨c, t, hopening, hmark, -⟩ := b.written.exists_cons
  rw [hchars]
  rw [hopening, List.cons_append, List.cons_append] at hread ⊢
  rw [topLevel, if_neg (not_not_intro rfl), startsWith?_comment hmark, if_neg (by simp)]
  split
  · next hnone => cases hread.symm.trans hnone
  · next hsome =>
    cases hread.symm.trans hsome
    rw [b.opens, if_neg Bool.false_ne_true]
    split
    · next hnone => cases hbody.symm.trans hnone
    · next hsome =>
      cases hbody.symm.trans hsome
      rfl

/-- The blocks of a written file are found in order, and nothing else is. -/
theorem topLevel_written (pieces : List Piece) :
    topLevel (written pieces) = (blocksOf pieces).map .ok := by
  induction pieces with
  | nil => rw [written, List.flatMap_nil, topLevel]; rfl
  | cons piece pieces ih =>
    rw [written, List.flatMap_cons, ← written]
    cases piece with
    | text s h => rw [Piece.chars, topLevel_text h, ih]; rfl
    | comment s hstart hend hfirst =>
      rw [Piece.chars, topLevel_comment hstart hend hfirst, ih]; rfl
    | block b => rw [Piece.chars, topLevel_block, ih]; rfl

/-! ## What is read from them -/

/-- What is gathered with one more block. -/
def Gathered.put (g : Gathered) (b : Block) : Gathered where
  template? := if b.isNamed "template" then some b.body else g.template?
  script? := if b.isNamed "script" then some b.body else g.script?
  styles := g.styles ++ if b.isNamed "style" then [b.style] else []

/-- A block that repeats no template and no script is added. -/
theorem add_eq_ok {g : Gathered} {b : Block}
    (htemplate : b.isNamed "template" = true → g.template? = none)
    (hscript : b.isNamed "script" = true → g.script? = none) : g.add b = .ok (g.put b) := by
  have hnamed (name : String) : b.isNamed name = true ↔ b.kind = name.toList := beq_iff_eq
  simp only [hnamed] at htemplate hscript
  simp only [Gathered.put, hnamed]
  rw [Gathered.add]
  by_cases ht : b.kind = "template".toList
  · rw [if_pos ht, htemplate ht]
    simp [ht]
  · rw [if_neg ht]
    by_cases hs : b.kind = "script".toList
    · rw [if_pos hs, hscript hs]
      simp [hs]
    · rw [if_neg hs]
      split
      · next hy => simp [Block.style]
      · next hy => simp

/-- How the first of some blocks is found: the next block fills the place, if it is one and the place
is free. -/
theorem first_cons {p : Block → Bool} {found? : Option String} {b : Block} {bs : List Block}
    (h : (b :: bs).countP p + found?.toList.length ≤ 1) :
    (p b = true → found? = none) ∧
      bs.countP p + (if p b then some b.body else found?).toList.length ≤ 1 ∧
      (if p b then some b.body else found?).or ((bs.find? p).map (·.body)) =
        found?.or (((b :: bs).find? p).map (·.body)) := by
  rw [List.countP_cons] at h
  by_cases hb : p b = true
  · simp only [hb, if_true] at h ⊢
    have hfree : found?.toList.length = 0 := by omega
    rw [List.length_eq_zero_iff, Option.toList_eq_nil_iff] at hfree
    subst hfree
    rw [List.find?_cons_of_pos hb]
    exact ⟨fun _ => rfl, h, rfl⟩
  · rw [if_neg hb] at h ⊢
    rw [List.find?_cons_of_neg hb]
    exact ⟨fun h => absurd h hb, h, rfl⟩

/-- Blocks without a second template and a second script are all gathered. -/
theorem foldlM_add {bs : List Block} {g : Gathered}
    (htemplate : bs.countP (·.isNamed "template") + g.template?.toList.length ≤ 1)
    (hscript : bs.countP (·.isNamed "script") + g.script?.toList.length ≤ 1) :
    bs.foldlM Gathered.add g = .ok {
      template? := g.template?.or ((bs.find? (·.isNamed "template")).map (·.body))
      script? := g.script?.or ((bs.find? (·.isNamed "script")).map (·.body))
      styles := g.styles ++ (bs.filter (·.isNamed "style")).map Block.style } := by
  induction bs generalizing g with
  | nil =>
    obtain ⟨template?, script?, styles⟩ := g
    simp [pure, Except.pure]
  | cons b bs ih =>
    obtain ⟨hfree, htemplate, hfirst⟩ := first_cons htemplate
    obtain ⟨hfree', hscript, hfirst'⟩ := first_cons hscript
    have hmore := ih (g := g.put b) htemplate hscript
    rw [List.foldlM_cons, add_eq_ok hfree hfree']
    refine hmore.trans ?_
    rw [Gathered.put, hfirst, hfirst', List.append_assoc, List.filter_cons]
    split <;> rfl

/-- **Written files are read back.** A file with one template and at most one script among its blocks
is read as these and as its style sheets in order. -/
theorem parse_written (pieces : List Piece) {template : Block}
    (htemplate : (blocksOf pieces).filter (·.isNamed "template") = [template])
    (hscript : (blocksOf pieces).countP (·.isNamed "script") ≤ 1) :
    parse (String.ofList (written pieces)) = .ok {
      template := template.body
      script := (((blocksOf pieces).find? (·.isNamed "script")).map (·.body)).getD ""
      styles := ((blocksOf pieces).filter (·.isNamed "style")).map Block.style } := by
  have hone : (blocksOf pieces).countP (·.isNamed "template") = 1 := by
    rw [List.countP_eq_length_filter, htemplate, List.length_singleton]
  have hfind : (blocksOf pieces).find? (·.isNamed "template") = some template := by
    rw [← List.head?_filter, htemplate, List.head?_cons]
  have hgather := foldlM_add (g := {}) (Nat.le_of_eq hone) hscript
  rw [hfind] at hgather
  rw [parse, String.toList_ofList, topLevel_written, List.foldlM_map]
  change (do let gathered ← (blocksOf pieces).foldlM Gathered.add {}; _) = _
  rw [hgather]
  rfl

/-- A script with an attribute, and with a closing tag of a longer name in its body. -/
def cardScript : WrittenBlock where
  tag := ⟨"script", [⟨"lang", some "ts"⟩], false⟩
  opening := "<script lang=\"ts\">".toList
  body := "\nexport default 1 // </scripts>\n".toList
  closing := "script".toList
  written := by
    have hgap : Blanks [' '] := by decide
    have hcontinues : Continues [⟨"lang", some "ts"⟩] false " lang=\"ts\">".toList :=
      .quoted hgap (by decide) (by decide) blanks_nil blanks_nil (.inl rfl) (by decide)
        (.close blanks_nil)
    exact ⟨by decide, _, hcontinues, rfl⟩
  opens := rfl
  closes := rfl
  isBody := by decide +kernel

/-- A template whose tags are spelled differently. -/
def cardTemplate : WrittenBlock where
  tag := ⟨"Template", [], false⟩
  opening := "<Template>".toList
  body := "\n  <p title='>'>a < b</p>\n".toList
  closing := "TEMPLATE".toList
  written := ⟨by decide, _, .close blanks_nil, rfl⟩
  opens := rfl
  closes := by decide +kernel
  isBody := by decide +kernel

/-- A block that is not read, with closing tags of other blocks in its body. -/
def cardNotes : WrittenBlock where
  tag := ⟨"notes", [], false⟩
  opening := "<notes>".toList
  body := "<template></template></style>".toList
  closing := "notes".toList
  written := ⟨by decide, _, .close blanks_nil, rfl⟩
  opens := rfl
  closes := rfl
  isBody := by decide +kernel

/-- A style block with an attribute that has no value and one that has. -/
def cardStyle : WrittenBlock where
  tag := ⟨"style", [⟨"scoped", none⟩, ⟨"LANG", some "scss"⟩], false⟩
  opening := "<style scoped LANG=scss>".toList
  body := " p > a ".toList
  closing := "style".toList
  written := by
    have hgap : Blanks [' '] := by decide
    have hlang : Continues [⟨"LANG", some "scss"⟩] false " LANG=scss>".toList :=
      .bare hgap (by decide) (by decide) blanks_nil blanks_nil
        ⟨'s', ['c', 's', 's'], rfl, by decide, List.all_eq_true.1 (by decide)⟩ (by decide)
        (.close blanks_nil)
    have hscoped : Continues [⟨"scoped", none⟩, ⟨"LANG", some "scss"⟩] false
        " scoped LANG=scss>".toList := .flag hgap (by decide) (by decide) hlang
    exact ⟨by decide, _, hscoped, rfl⟩
  opens := rfl
  closes := rfl
  isBody := by decide +kernel

/-- A component file with a comment that has a tag in it. -/
def cardPieces : List Piece :=
  [.comment "<!-- <script> -->".toList ⟨_, rfl⟩ ⟨"<!-- <script> ".toList, rfl⟩ (by decide +kernel),
    .text ['\n'] (by decide), .block cardScript, .block cardNotes, .block cardTemplate,
    .block cardStyle]

theorem parse_written_card :
    (blocksOf cardPieces).filter (·.isNamed "template") = [cardTemplate.block] ∧
      (blocksOf cardPieces).countP (·.isNamed "script") ≤ 1 ∧
      parse (String.ofList (written cardPieces)) = .ok {
        template := "<p title='>'>a < b</p>"
        script := "export default 1 // </scripts>"
        styles := [⟨"p > a", some "scss"⟩] } := by
  have htemplate : (blocksOf cardPieces).filter (·.isNamed "template") = [cardTemplate.block] := rfl
  have hscript : (blocksOf cardPieces).countP (·.isNamed "script") ≤ 1 := by decide
  exact ⟨htemplate, hscript, parse_written cardPieces htemplate hscript⟩

end StaticSite.Blocks
