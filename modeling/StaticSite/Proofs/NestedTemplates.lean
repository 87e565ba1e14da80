import StaticSite.Proofs.TagsInUse
import StaticSite.Proofs.WrittenBlocks

/-!
# Templates inside a template

A template ends at the closing tag that belongs to its opening one, so the templates inside it have to
be counted. They are counted by a plain search: an opening tag is one if the name ends as names of
templates do, it ends at the next `>`, and it closes itself if a slash stands in front of that. This
is not how opening tags are read elsewhere, where a `>` in quotes ends nothing, a slash behind a value
without quotes belongs to the value, and an attribute may follow the name directly.

`Body` has the bodies whose templates are nested well as opening tags are read elsewhere, and `marks`
the tags that are counted in them. A body is found whole exactly if the counted tags are nested well
too (`template_whole_iff`).
-/

namespace StaticSite.Blocks

open Text Markup

/-! ## Nested bodies -/

/-- What a template is called. -/
def templateName : List Char := "template".toList

/-- Whether the counter takes an opening tag of a template for one that does not close itself. `tail` is
what stands behind its name. -/
def isCounted (tail : List Char) : Bool :=
  tail.head?.any endsTemplateName && (tail.takeWhile (· ≠ '>')).getLast? != some '/'

/-- What the counter goes on with inside an opening tag: what stands behind its first `>`, or all behind
its name if that does not end as names of templates do. -/
def unread (tail : List Char) : List Char :=
  if tail.head?.any endsTemplateName then (tail.dropWhile (· ≠ '>')).tail else tail

/-- An opening tag of a template, as tags are read. -/
structure TemplateTag where
  /-- the name, as it is spelled -/
  name : List Char
  /-- what stands behind it -/
  tail : List Char
  /-- the tag that is read -/
  tag : OpeningTag
  /-- it is read up to its end -/
  read : readOpeningTag ('<' :: (name ++ tail)) = some (tag, [])
  /-- it has this name -/
  tag_name : tag.name = String.ofList name
  /-- it is a template, in any letter case -/
  lower_name : lower name = templateName
  /-- the word `template` does not stand behind a `>` in its attributes. It would count only as the name
  of a tag, but values and names of attributes with the word in them are left out there as well -/
  plain : ¬ templateName <:+: lower (unread tail)

/-- The text of a tag. -/
def TemplateTag.chars (t : TemplateTag) : List Char := '<' :: (t.name ++ t.tail)

/-- What a tag counts for. -/
def TemplateTag.marks (t : TemplateTag) : List Direction :=
  if isCounted t.tail then [.opening] else []

/-- A closing tag of a template. -/
structure TemplateEnd where
  /-- the name, as it is spelled -/
  name : List Char
  /-- it is a template, in any letter case -/
  lower_name : lower name = templateName

/-- The text of a closing tag. -/
def TemplateEnd.chars (t : TemplateEnd) : List Char := '<' :: '/' :: (t.name ++ ['>'])

/-- Text with templates in it, to any depth. -/
inductive Body where
  /-- text -/
  | text (s : List Char) (h : ¬ templateName <:+: lower s)
  /-- text, then an element with its body, then more -/
  | element (before : List Char) (h : ¬ templateName <:+: lower before) (opening : TemplateTag)
      (hopen : opening.tag.selfClosing = false) (inside : Body) (closing : TemplateEnd)
      (after : Body)
  /-- text, then an element that closes itself, then more -/
  | selfClosing (before : List Char) (h : ¬ templateName <:+: lower before)
      (opening : TemplateTag) (hclose : opening.tag.selfClosing = true) (after : Body)

namespace Body

/-- The text of a body. -/
def chars : Body → List Char
  | .text s _ => s
  | .element before _ opening _ inside closing after =>
    before ++ (opening.chars ++ (inside.chars ++ (closing.chars ++ after.chars)))
  | .selfClosing before _ opening _ after => before ++ (opening.chars ++ after.chars)

/-- The tags that are counted. -/
def marks : Body → List Direction
  | .text _ _ => []
  | .element _ _ opening _ inside _ after =>
    opening.marks ++ (inside.marks ++ .closing :: after.marks)
  | .selfClosing _ _ opening _ after => opening.marks ++ after.marks

end Body

/-- How many templates are open behind some tags, if `depth` are open in front of them; `none` if more
are closed than there are. -/
def depthAfter (depth : Nat) : List Direction → Option Nat
  | [] => some depth
  | .opening :: marks => depthAfter (depth + 1) marks
  | .closing :: marks =>
    match depth with
    | 0 => none
    | depth + 1 => depthAfter depth marks

/-- Puts a text in front of the first of two. -/
def prepend (p : List Char) (cut : List Char × List Char) : List Char × List Char :=
  (p ++ cut.1, cut.2)

/-- A file that is one template. -/
def wholeFile (b : Body) : String :=
  String.ofList ("<template>".toList ++ (b.chars ++ "</template>".toList))

/-- The template of the file is the whole body. -/
def IsWhole (b : Body) : Prop :=
  ∃ blocks, parse (wholeFile b) = .ok blocks ∧ blocks.template = String.ofList (trim b.chars)

/-! ## Counted tags -/

theorem depthAfter_append (depth : Nat) (marks more : List Direction) :
    depthAfter depth (marks ++ more) = (depthAfter depth marks).bind (depthAfter · more) := by
  induction marks generalizing depth with
  | nil => rfl
  | cons mark marks ih =>
    cases mark with
    | opening => exact ih (depth + 1)
    | closing =>
      cases depth with
      | zero => rfl
      | succ depth => exact ih depth

theorem depthAfter_marks (depth : Nat) (t : TemplateTag) :
    depthAfter depth t.marks = some (depth + t.marks.length) := by
  rw [TemplateTag.marks]
  split <;> rfl

/-! ## The ends of tags -/

/-- A tag ends with its `>`. -/
theorem exists_of_readAttributes {s rest : List Char} {attributes : List Attribute}
    {selfClosing : Bool} (h : readAttributes s = some (attributes, selfClosing, rest)) :
    ∃ front, s = front ++ '>' :: rest := by
  fun_induction readAttributes s generalizing attributes with
  | case1 => cases h
  | case2 s t ht =>
    cases h
    obtain ⟨front, hfront⟩ := List.dropWhile_suffix (l := s) isMarkupBlank
    exact ⟨front, by rw [← ht, hfront]⟩
  | case3 s t ht =>
    cases h
    obtain ⟨front, hfront⟩ := List.dropWhile_suffix (l := s) isMarkupBlank
    exact ⟨front ++ ['/'], by rw [List.append_assoc]; exact (ht ▸ hfront).symm⟩
  | case4 => cases h
  | case5 => cases h
  | case6 s a t more closing rest hr _ _ _ ha ih =>
    cases h
    obtain ⟨front, hfront⟩ := ih hr
    obtain ⟨start, hstart⟩ := (suffix_of_readAttribute ha).trans
      (List.dropWhile_suffix (l := s) isMarkupBlank)
    exact ⟨start ++ front, by rw [← hstart, hfront, List.append_assoc]⟩

theorem exists_of_readOpeningTag {s rest : List Char} {tag : OpeningTag}
    (h : readOpeningTag s = some (tag, rest)) : ∃ front, s = front ++ '>' :: rest := by
  unfold readOpeningTag at h
  split at h
  · next c t =>
    split at h
    · split at h
      · next ha =>
        cases h
        obtain ⟨front, hfront⟩ := exists_of_readAttributes ha
        obtain ⟨start, hstart⟩ := List.dropWhile_suffix (l := t) isTagChar
        exact ⟨'<' :: c :: (start ++ front), by rw [← hstart, hfront]; simp⟩
      · cases h
    · cases h
  · cases h

theorem close_notMem_name {name : List Char} (h : lower name = templateName) : '>' ∉ name := by
  intro hmem
  have hlower : '>' ∈ lower name := List.mem_map.2 ⟨'>', hmem, rfl⟩
  exact absurd (h ▸ hlower) (by decide)

theorem angle_notMem_name {name : List Char} (h : lower name = templateName) : '<' ∉ name :=
  fun hmem => absurd (h ▸ angle_mem_lower.2 hmem) (by decide)

theorem TemplateTag.getLast?_tail (t : TemplateTag) : t.tail.getLast? = some '>' := by
  obtain ⟨front, hfront⟩ := exists_of_readOpeningTag t.read
  have hlast : ('<' :: (t.name ++ t.tail)).getLast? = some '>' := by
    rw [hfront, List.getLast?_concat]
  rw [← List.cons_append, List.getLast?_append] at hlast
  rcases htail : t.tail.getLast? with _ | c
  · rw [htail, Option.none_or] at hlast
    rcases List.mem_cons.1 (List.mem_of_getLast? hlast) with heq | hmem
    · cases heq
    · exact absurd hmem (close_notMem_name t.lower_name)
  · rw [htail, Option.some_or] at hlast
    exact hlast

theorem TemplateTag.exists_head (t : TemplateTag) : ∃ c, t.tail.head? = some c := by
  have hlast := t.getLast?_tail
  rcases htail : t.tail with _ | ⟨c, tail⟩
  · rw [htail] at hlast
    cases hlast
  · exact ⟨c, rfl⟩

theorem unread_suffix (tail : List Char) : unread tail <:+ tail := by
  rw [unread]
  split
  · exact (List.tail_suffix _).trans (List.dropWhile_suffix _)
  · exact List.suffix_refl _

/-! ## Text without templates -/

theorem lower_append (s t : List Char) : lower (s ++ t) = lower s ++ lower t := List.map_append

theorem startsWithFolded?_cons {c : Char} (hc : c.toLower = c) (start s : List Char) :
    startsWithFolded? (c :: start) (c :: s) = startsWithFolded? start s := by
  rw [startsWithFolded?, if_pos hc.symm]

/-- What is looked for does not go beyond a character that is not in it. -/
theorem startsWithFolded?_stop {start p t rest : List Char} {c : Char} (hc : c ∈ p)
    (hstart : c.toLower ∉ start) (h : startsWithFolded? start (p ++ t) = some rest) :
    start <:+: lower p := by
  obtain ⟨spelled, rfl, hsplit⟩ := startsWithFolded?_eq_some.1 h
  rcases List.append_eq_append_iff.1 hsplit with ⟨more, rfl, -⟩ | ⟨inside, rfl, -⟩
  · exact absurd (List.mem_map_of_mem (List.mem_append_left more hc)) hstart
  · exact ⟨[], lower inside, by rw [lower_append, List.nil_append]⟩

theorem templateTagAt?_eq (s : List Char) : templateTagAt? s =
    match (startsWithFolded? ('<' :: '/' :: templateName) s).filter
      (·.head?.any endsTemplateName) with
    | some r => some (.closing, r)
    | none => ((startsWithFolded? ('<' :: templateName) s).filter
        (·.head?.any endsTemplateName)).map fun r => (.opening, r) := rfl

/-- No template starts in a text without the word that ends a tag or has a tag behind it. -/
theorem templateTagAt?_text {p t : List Char} (hne : p ≠ []) (hp : ¬ templateName <:+: lower p)
    (hend : '>' ∈ p ∨ t.head? = some '<') : templateTagAt? (p ++ t) = none := by
  have hnone {start : List Char} (hangle : '<' ∉ start) (hclose : '>' ∉ start)
      (hword : templateName <:+: start) : startsWithFolded? ('<' :: start) (p ++ t) = none := by
    rcases hend with hmem | ht
    · rw [Option.eq_none_iff_forall_ne_some]
      intro rest hrest
      have hstop : '>'.toLower ∉ '<' :: start := by simpa using hclose
      exact hp ((List.infix_cons hword).trans (startsWithFolded?_stop hmem hstop hrest))
    · obtain ⟨u, rfl⟩ := List.head?_eq_some_iff.1 ht
      exact startsWithFolded?_eq_none hangle hword hne hp
  rw [templateTagAt?_eq, hnone (by decide) (by decide) (List.infix_cons (List.infix_refl _)),
    hnone (by decide) (by decide) (List.infix_refl _)]
  rfl

theorem templateTagAt?_of_ne {c : Char} (h : c ≠ '<') (s : List Char) :
    templateTagAt? (c :: s) = none := by
  have hc : '<' ≠ c.toLower := fun heq => h (toLower_eq_angle.1 heq.symm)
  rw [templateTagAt?_eq, startsWithFolded?, if_neg hc, startsWithFolded?, if_neg hc]
  rfl

theorem prepend_prepend (p q : List Char) : prepend p ∘ prepend q = prepend (p ++ q) := by
  funext cut
  simp [prepend]

theorem cutTemplate?_cons {c : Char} {t : List Char} (depth : Nat)
    (h : templateTagAt? (c :: t) = none) :
    cutTemplate? depth (c :: t) = (cutTemplate? depth t).map (prepend [c]) := by
  rw [cutTemplate?]
  split
  · rfl
  · next hsome => cases h.symm.trans hsome

/-- Text without templates is read over. -/
theorem cutTemplate?_text {p t : List Char} (depth : Nat) (hp : ¬ templateName <:+: lower p)
    (hend : (∀ c, p.getLast? = some c → c = '>') ∨ t.head? = some '<') :
    cutTemplate? depth (p ++ t) = (cutTemplate? depth t).map (prepend p) := by
  induction p with
  | nil => exact (congrFun Option.map_id _).symm
  | cons c p ih =>
    have hstop : (∀ d, (c :: p).getLast? = some d → d = '>') → '>' ∈ c :: p := fun hlast => by
      have hd := List.getLast?_eq_some_getLast (List.cons_ne_nil c p)
      exact List.mem_of_getLast? (hd.trans (congrArg some (hlast _ hd)))
    have hnone := templateTagAt?_text (List.cons_ne_nil c p) hp (hend.imp_left hstop)
    rw [List.cons_append] at hnone ⊢
    rw [cutTemplate?_cons depth hnone]
    rcases p with _ | ⟨d, p⟩
    · rfl
    · rw [List.getLast?_cons_cons] at hend
      rw [ih (fun hinfix => hp (List.infix_cons hinfix)) hend, Option.map_map, prepend_prepend]
      rfl

theorem cutTemplate?_of_notMem {p : List Char} (depth : Nat) (hp : '<' ∉ p) (t : List Char) :
    cutTemplate? depth (p ++ t) = (cutTemplate? depth t).map (prepend p) := by
  induction p with
  | nil => exact (congrFun Option.map_id _).symm
  | cons c p ih =>
    rw [List.mem_cons, not_or] at hp
    rw [List.cons_append, cutTemplate?_cons depth (templateTagAt?_of_ne (Ne.symm hp.1) _), ih hp.2,
      Option.map_map, prepend_prepend]
    rfl

/-! ## Tags of templates -/

theorem startsWithFolded?_name {name : List Char} (h : lower name = templateName) (s : List Char) :
    startsWithFolded? templateName (name ++ s) = some s :=
  startsWithFolded?_eq_some.2 ⟨name, h, rfl⟩

theorem templateTagAt?_opening {name : List Char} (h : lower name = templateName) (s : List Char) :
    templateTagAt? ('<' :: (name ++ s)) =
      if s.head?.any endsTemplateName then some (.opening, s) else none := by
  have hslash : startsWithFolded? ('/' :: templateName) (name ++ s) = none := by
    rcases name with _ | ⟨c, name⟩
    · cases h
    · have hc : c.toLower = 't' := (List.cons.inj h).1
      rw [List.cons_append, startsWithFolded?, hc, if_neg (by decide)]
  have hopen := startsWithFolded?_name h s
  rw [templateTagAt?_eq, startsWithFolded?_cons rfl, startsWithFolded?_cons rfl, hslash, hopen]
  simp only [Option.filter_none, Option.filter_some]
  split <;> rfl

theorem templateTagAt?_closing {name : List Char} (h : lower name = templateName) (s : List Char) :
    templateTagAt? ('<' :: '/' :: (name ++ '>' :: s)) = some (.closing, '>' :: s) := by
  have hclose := startsWithFolded?_name h ('>' :: s)
  rw [templateTagAt?_eq, startsWithFolded?_cons rfl, startsWithFolded?_cons rfl, hclose]
  rfl

variable {s t r inside rest name : List Char}

/-- What a tag counts for, with what stands in front of its `>`. -/
def marksOf (inside : List Char) : Direction → List Direction
  | .opening => if inside.getLast? = some '/' then [] else [.opening]
  | .closing => [.closing]

theorem cutTemplate?_tag {direction : Direction} (depth : Nat)
    (htag : templateTagAt? (s ++ r) = some (direction, r))
    (hcut : cut? ['>'] r = some (inside, rest)) :
    cutTemplate? depth (s ++ r) =
      match depthAfter depth (marksOf inside direction) with
      | none => some ([], rest)
      | some depth => (cutTemplate? depth rest).map (prepend (s ++ (inside ++ ['>']))) := by
  have htake : (s ++ r).take ((s ++ r).length - rest.length) = s ++ (inside ++ ['>']) := by
    have hsplit : s ++ r = s ++ (inside ++ ['>']) ++ rest := by
      rw [cut?_eq_some hcut, List.append_assoc, List.append_assoc, List.append_assoc]
    rw [hsplit, List.length_append, Nat.add_sub_cancel, List.take_left]
  generalize s ++ r = whole at htag htake
  rcases whole with _ | ⟨c, whole⟩
  · cases htag
  · rw [cutTemplate?]
    split
    · next hnone => cases htag.symm.trans hnone
    · next hsome =>
      cases htag.symm.trans hsome
      split
      · next hnone => cases hcut.symm.trans hnone
      · next hsome =>
        cases hcut.symm.trans hsome
        dsimp only
        rw [htake]
        split
        · rfl
        · rfl
        · rw [marksOf]
          split <;> rfl

/-- The closing tag of a template. -/
theorem cutTemplate?_closing (t : TemplateEnd) (depth : Nat) (s : List Char) :
    cutTemplate? depth (t.chars ++ s) =
      match depthAfter depth [.closing] with
      | none => some ([], s)
      | some depth => (cutTemplate? depth s).map (prepend t.chars) := by
  have htag := cutTemplate?_tag (s := '<' :: '/' :: t.name) depth
    (templateTagAt?_closing t.lower_name s) rfl
  simpa [TemplateEnd.chars, marksOf] using htag

/-- The first of some characters, with what stands in front of it and behind it. -/
theorem takeWhile_append_cons {c : Char} (h : c ∈ s) :
    s = s.takeWhile (· ≠ c) ++ c :: (s.dropWhile (· ≠ c)).tail := by
  induction s with
  | nil => cases h
  | cons d s ih =>
    by_cases hd : d = c
    · simp [hd]
    · have hmem := (List.mem_cons.1 h).resolve_left (Ne.symm hd)
      rw [List.takeWhile_cons_of_pos (by simpa using hd),
        List.dropWhile_cons_of_pos (by simpa using hd), List.cons_append, ← ih hmem]

/-- What the counter goes on with inside an opening tag is read over. -/
theorem cutTemplate?_unread (t : TemplateTag) (depth : Nat) (s : List Char) :
    cutTemplate? depth (unread t.tail ++ s) =
      (cutTemplate? depth s).map (prepend (unread t.tail)) := by
  refine cutTemplate?_text depth t.plain (.inl fun c hc => ?_)
  obtain ⟨front, hfront⟩ := unread_suffix t.tail
  have hlast := t.getLast?_tail
  rw [← hfront, List.getLast?_append, hc, Option.some_or] at hlast
  exact Option.some.inj hlast

/-- An opening tag of a template is read up to its end. -/
theorem cutTemplate?_opening (t : TemplateTag) (depth : Nat) (s : List Char) :
    cutTemplate? depth (t.chars ++ s) =
      (cutTemplate? (depth + t.marks.length) s).map (prepend t.chars) := by
  have htag := templateTagAt?_opening t.lower_name (t.tail ++ s)
  have hunread := cutTemplate?_unread t (s := s)
  obtain ⟨c, hc⟩ := t.exists_head
  rw [List.head?_append, hc, Option.some_or] at htag
  rw [unread, hc] at hunread
  rw [TemplateTag.chars, List.cons_append, List.append_assoc]
  by_cases hname : (some c).any endsTemplateName = true
  · -- it is taken up to its first `>`, and the rest is text
    rw [if_pos hname] at htag hunread
    have hsplit := takeWhile_append_cons (List.mem_of_getLast? t.getLast?_tail)
    have hinside : '>' ∉ t.tail.takeWhile (· ≠ '>') := fun hmem => by
      simpa using List.mem_takeWhile_imp hmem
    generalize hinside_eq : t.tail.takeWhile (· ≠ '>') = inside at hsplit hinside
    generalize (t.tail.dropWhile (· ≠ '>')).tail = rest at hsplit hunread
    have hcut : cut? ['>'] (t.tail ++ s) = some (inside, rest ++ s) := by
      rw [hsplit, List.append_assoc, List.cons_append]
      exact cut?_of_notMem hinside [] (rest ++ s)
    have hwhole := cutTemplate?_tag (s := '<' :: t.name) depth htag hcut
    have hchars : '<' :: t.name ++ (inside ++ ['>']) ++ rest = '<' :: (t.name ++ t.tail) := by
      rw [hsplit]
      simp
    have hmarks : t.marks = marksOf inside .opening := by
      rw [TemplateTag.marks, isCounted, hc, hname, marksOf, hinside_eq]
      by_cases hslash : inside.getLast? = some '/' <;> simp [hslash]
    rw [← hmarks, depthAfter_marks] at hwhole
    dsimp only at hwhole
    rw [hunread, Option.map_map, prepend_prepend, hchars] at hwhole
    exact hwhole
  · have hmarks : t.marks = [] := by
      rw [TemplateTag.marks, isCounted, hc, Bool.eq_false_iff.2 hname]
      rfl
    rw [if_neg hname] at htag hunread
    rw [cutTemplate?_cons depth htag,
      cutTemplate?_of_notMem depth (angle_notMem_name t.lower_name), hunread, Option.map_map,
      Option.map_map, prepend_prepend, prepend_prepend, hmarks]
    rfl

/-! ## Bodies -/

theorem cutTemplate?_before {before : List Char} (hbefore : ¬ templateName <:+: lower before)
    (t : TemplateTag) (depth : Nat) (s : List Char) :
    cutTemplate? depth (before ++ (t.chars ++ s)) =
      (cutTemplate? (depth + t.marks.length) s).map (prepend (before ++ t.chars)) := by
  rw [cutTemplate?_text depth hbefore (.inr rfl), cutTemplate?_opening, Option.map_map,
    prepend_prepend]

namespace Body

theorem element_append (before : List Char) (hbefore : ¬ templateName <:+: lower before)
    (opening : TemplateTag) (hopen : opening.tag.selfClosing = false) (inside : Body)
    (closing : TemplateEnd) (after : Body) (s : List Char) :
    (element before hbefore opening hopen inside closing after).chars ++ s =
      before ++ (opening.chars ++ (inside.chars ++ (closing.chars ++ (after.chars ++ s)))) := by
  simp only [chars, List.append_assoc]

/-- The counter reads over a body in which no template is closed that is not open. -/
theorem cutTemplate?_chars (b : Body) {depth d : Nat} (h : depthAfter depth b.marks = some d)
    (s : List Char) : cutTemplate? depth (b.chars ++ '<' :: s) =
      (cutTemplate? d ('<' :: s)).map (prepend b.chars) := by
  induction b generalizing depth d s with
  | text p hp =>
    cases h
    exact cutTemplate?_text _ hp (.inr rfl)
  | element before hbefore opening hopen inside closing after ihinside ihafter =>
    rw [marks, depthAfter_append, Blocks.depthAfter_marks, Option.bind_some, depthAfter_append] at h
    obtain ⟨e, hinside, hafter⟩ := Option.bind_eq_some_iff.1 h
    rcases e with _ | e
    · cases hafter
    · have hin := ihinside hinside ('/' :: (closing.name ++ ['>'] ++ (after.chars ++ '<' :: s)))
      have hclose := cutTemplate?_closing closing (e + 1) (after.chars ++ '<' :: s)
      have hout := ihafter hafter s
      change cutTemplate? _ (inside.chars ++ (closing.chars ++ _)) =
        (cutTemplate? _ (closing.chars ++ _)).map _ at hin
      rw [depthAfter, depthAfter] at hclose
      dsimp only at hclose
      rw [hclose, hout] at hin
      rw [element_append, cutTemplate?_before hbefore, hin]
      simp [Option.map_map, prepend_prepend, chars]
  | selfClosing before hbefore opening hclose after ih =>
    rw [marks, depthAfter_append, Blocks.depthAfter_marks, Option.bind_some] at h
    rw [chars, List.append_assoc, List.append_assoc, cutTemplate?_before hbefore, ih h s,
      Option.map_map, prepend_prepend, List.append_assoc]

/-- Where a template is closed that is not open the counter takes its closing tag for the last one. -/
theorem exists_cutTemplate? (b : Body) {depth : Nat} (h : depthAfter depth b.marks = none)
    (s : List Char) : ∃ front closing back, b.chars = front ++ (TemplateEnd.chars closing ++ back) ∧
      cutTemplate? depth (b.chars ++ '<' :: s) = some (front, back ++ '<' :: s) := by
  induction b generalizing depth s with
  | text p hp => cases h
  | element before hbefore opening hopen inside closing after ihinside ihafter =>
    rw [marks, depthAfter_append, Blocks.depthAfter_marks, Option.bind_some, depthAfter_append] at h
    rcases hinside : depthAfter (depth + opening.marks.length) inside.marks with _ | e
    · obtain ⟨front, last, back, hchars, hcut⟩ := ihinside hinside
        ('/' :: (closing.name ++ ['>'] ++ (after.chars ++ '<' :: s)))
      change cutTemplate? _ (inside.chars ++ (closing.chars ++ _)) =
        some (front, back ++ (closing.chars ++ _)) at hcut
      refine ⟨before ++ opening.chars ++ front, last, back ++ (closing.chars ++ after.chars), ?_, ?_⟩
      · simp [chars, hchars]
      · rw [element_append, cutTemplate?_before hbefore, hcut]
        simp [prepend]
    · rw [hinside, Option.bind_some] at h
      have hin := inside.cutTemplate?_chars hinside
        ('/' :: (closing.name ++ ['>'] ++ (after.chars ++ '<' :: s)))
      have hclose := cutTemplate?_closing closing e (after.chars ++ '<' :: s)
      change cutTemplate? _ (inside.chars ++ (closing.chars ++ _)) =
        (cutTemplate? _ (closing.chars ++ _)).map _ at hin
      rcases e with _ | e
      · refine ⟨before ++ opening.chars ++ inside.chars, closing, after.chars, ?_, ?_⟩
        · simp [chars]
        · rw [element_append, cutTemplate?_before hbefore, hin, hclose]
          simp [prepend, depthAfter]
      · obtain ⟨front, last, back, hchars, hcut⟩ := ihafter h s
        rw [depthAfter, depthAfter] at hclose
        dsimp only at hclose
        rw [hclose, hcut] at hin
        refine ⟨before ++ opening.chars ++ inside.chars ++ closing.chars ++ front, last, back, ?_, ?_⟩
        · simp [chars, hchars]
        · rw [element_append, cutTemplate?_before hbefore, hin]
          simp [prepend]
  | selfClosing before hbefore opening hclose after ih =>
    rw [marks, depthAfter_append, Blocks.depthAfter_marks, Option.bind_some] at h
    obtain ⟨front, last, back, hchars, hcut⟩ := ih h s
    refine ⟨before ++ opening.chars ++ front, last, back, ?_, ?_⟩
    · simp [chars, hchars]
    · rw [chars, List.append_assoc, List.append_assoc, cutTemplate?_before hbefore, hcut]
      rfl

end Body

/-! ## Whole files -/

/-- The tag of the template of a file. -/
def wholeTag : OpeningTag := ⟨"template", [], false⟩

theorem written_wholeTag : wholeTag.Written ('<' :: 't' :: "emplate>".toList) :=
  ⟨by decide, ['>'], .close blanks_nil, rfl⟩

theorem lower_wholeTag : lower wholeTag.name.toList = "template".toList := by decide

theorem toList_wholeFile (b : Body) : (wholeFile b).toList =
    '<' :: 't' :: ("emplate>".toList ++ (b.chars ++ "</template>".toList)) :=
  String.toList_ofList

theorem topLevel_wholeFile (b : Body) : topLevel (wholeFile b).toList =
    match cutTemplate? 0 (b.chars ++ "</template>".toList) with
    | none => [.error (.unclosedBlock "template")]
    | some (body, rest) => .ok ⟨wholeTag, String.ofList (trim body)⟩ :: topLevel rest := by
  have hread := readOpeningTag_written written_wholeTag (b.chars ++ "</template>".toList)
  rw [toList_wholeFile]
  generalize b.chars ++ "</template>".toList = s at hread ⊢
  have hbody : cutBody? (lower wholeTag.name.toList) s = cutTemplate? 0 s := by
    rw [cutBody?, if_pos lower_wholeTag]
  simp only [List.cons_append] at hread ⊢
  rw [topLevel, if_neg (not_not_intro rfl), startsWith?_comment (by decide),
    if_neg (by simp)]
  split
  · next hnone => cases hread.symm.trans hnone
  · next hsome =>
    cases hread.symm.trans hsome
    rw [wholeTag, if_neg Bool.false_ne_true, ← wholeTag]
    split
    · next hnone =>
      rw [hbody] at hnone
      rw [hnone]
      rfl
    · next hsome =>
      rw [hbody] at hsome
      rw [hsome]

theorem add_wholeTag (body : String) :
    ({} : Gathered).add ⟨wholeTag, body⟩ = .ok ⟨some body, none, []⟩ := by
  have hkind : Block.kind ⟨wholeTag, body⟩ = "template".toList := lower_wholeTag
  rw [Gathered.add, if_pos hkind]
  rfl

theorem template?_of_add {g g' : Gathered} {b : Block} {template : String} (h : g.add b = .ok g')
    (hg : g.template? = some template) : g'.template? = some template := by
  rw [Gathered.add, hg] at h
  split at h
  · cases h
  · split at h
    · split at h <;> cases h
      rfl
    · split at h <;> cases h
      · rfl
      · exact hg

theorem template?_of_foldlM {g g' : Gathered} {bs : List (Except SourceError Block)}
    {template : String} (h : bs.foldlM (fun g block => do g.add (← block)) g = .ok g')
    (hg : g.template? = some template) : g'.template? = some template := by
  induction bs generalizing g with
  | nil =>
    cases h
    exact hg
  | cons b bs ih =>
    rw [List.foldlM_cons] at h
    rcases b with e | b
    · cases h
    · obtain ⟨g₁, hadd, hmore⟩ := bind_eq_ok h
      exact ih hmore (template?_of_add hadd hg)

/-- The first block of a file is its template. -/
theorem template_of_parse {raw body : String} {bs : List (Except SourceError Block)}
    {blocks : Blocks} (htop : topLevel raw.toList = .ok ⟨wholeTag, body⟩ :: bs)
    (h : parse raw = .ok blocks) : blocks.template = body := by
  rw [parse, htop] at h
  obtain ⟨g, hfold, h⟩ := bind_eq_ok h
  rw [List.foldlM_cons] at hfold
  obtain ⟨g₁, hadd, hmore⟩ := bind_eq_ok hfold
  cases (add_wholeTag body).symm.trans hadd
  rw [template?_of_foldlM hmore rfl] at h
  cases h
  rfl

theorem parse_eq_ok {raw body : String} (htop : topLevel raw.toList = [.ok ⟨wholeTag, body⟩]) :
    parse raw = .ok ⟨body, "", []⟩ := by
  have hadd := add_wholeTag body
  rw [parse, htop, List.foldlM_cons]
  change ((({} : Gathered).add _ >>= pure) >>= _) = _
  rw [hadd]
  rfl

theorem count_trim {c : Char} (hc : isBlank c = false) (s : List Char) :
    (trim s).count c = s.count c := by
  have hdrop (s : List Char) : (s.dropWhile isBlank).count c = s.count c := by
    induction s with
    | nil => rfl
    | cons d s ih =>
      rw [List.dropWhile_cons]
      split
      · next hd =>
        have hne : d ≠ c := by
          rintro rfl
          rw [hd] at hc
          cases hc
        rw [ih, List.count_cons_of_ne hne]
      · rfl
  rw [trim, trimEnd, List.count_reverse, hdrop, List.count_reverse, trimStart, hdrop]

theorem cutTemplate?_last (depth : Nat) : cutTemplate? depth "</template>".toList =
    if depth = 0 then some ([], []) else none := by
  have hclose := cutTemplate?_closing ⟨templateName, rfl⟩ depth []
  rcases depth with _ | depth
  · exact hclose
  · refine hclose.trans ?_
    rw [depthAfter, depthAfter]
    simp [cutTemplate?]

/-- Where an inner closing tag is taken for the last one a part of the body is missing. -/
theorem not_isWhole_of_none {b : Body} (h : depthAfter 0 b.marks = none) : ¬ IsWhole b := by
  rintro ⟨blocks, hblocks, htemplate⟩
  obtain ⟨front, closing, back, hchars, hcut⟩ := b.exists_cutTemplate? h "/template>".toList
  have htop := topLevel_wholeFile b
  rw [show "</template>".toList = '<' :: "/template>".toList from rfl, hcut] at htop
  have htrim := String.ofList_injective ((template_of_parse htop hblocks).symm.trans htemplate)
  -- there is one more `<` in the body
  have hcount := congrArg (List.count '<') htrim
  rw [count_trim rfl, count_trim rfl, hchars, List.count_append, List.count_append,
    TemplateEnd.chars, List.count_cons_self] at hcount
  omega

theorem parse_of_some {b : Body} {depth : Nat} (h : depthAfter 0 b.marks = some depth) :
    parse (wholeFile b) = if depth = 0 then .ok ⟨String.ofList (trim b.chars), "", []⟩
      else .error (.unclosedBlock "template") := by
  have htop := topLevel_wholeFile b
  have hcut := b.cutTemplate?_chars h "/template>".toList
  rw [show '<' :: "/template>".toList = "</template>".toList from rfl, cutTemplate?_last] at hcut
  rw [hcut] at htop
  by_cases hdepth : depth = 0
  · rw [if_pos hdepth] at htop ⊢
    have hnil : topLevel [] = [] := by rw [topLevel]
    exact parse_eq_ok (by simpa [prepend, hnil] using htop)
  · rw [if_neg hdepth] at htop ⊢
    rw [parse, htop]
    rfl

/-- **Nested templates.** The template of a file is its whole body, exactly if the tags that are
counted in it are nested well. -/
theorem template_whole_iff (b : Body) : IsWhole b ↔ depthAfter 0 b.marks = some 0 := by
  constructor
  · intro hwhole
    rcases hmarks : depthAfter 0 b.marks with _ | depth
    · exact absurd hwhole (not_isWhole_of_none hmarks)
    · obtain ⟨blocks, hblocks, -⟩ := hwhole
      rw [parse_of_some hmarks] at hblocks
      split at hblocks
      · next hdepth => rw [hdepth]
      · cases hblocks
  · intro hmarks
    exact ⟨_, parse_of_some hmarks, rfl⟩

/-- A tag that does not close itself, with a slash in front of its first `>`. -/
def slashTag : TemplateTag where
  name := templateName
  tail := " a=\x22/>\x22>".toList
  tag := ⟨"template", [⟨"a", some "/>"⟩], false⟩
  read := by decide +kernel
  tag_name := rfl
  lower_name := rfl
  plain := by decide

/-- Templates are not matched like tags: one with that tag ends the template around it. -/
theorem template_cut_short : ¬ ∀ b : Body, IsWhole b := by
  intro h
  have hmarks : depthAfter 0 (Body.element [] (by decide) slashTag rfl (.text ['x'] (by decide))
      ⟨templateName, rfl⟩ (.text [] (by decide))).marks = none := by decide
  exact not_isWhole_of_none hmarks (h _)

end StaticSite.Blocks
