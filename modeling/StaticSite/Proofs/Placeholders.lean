import Mathlib.Data.List.TakeWhile
import StaticSite.Proofs.OpeningTags
import StaticSite.Proofs.Planned

/-!
# Pages with placeholders

The name of a page is text with placeholders in it, words in brackets that do not overlap
(`exists_stem`), and the page is dynamic if there is one (`isDynamic_iff`). For a route the values stand in their places and all else stays as it is. Each value
is checked by itself, and that is enough for the name that is put together: values have no slash and
more than dots, and what stands between them is part of a name (`isOrdinary_filled`). So the document
of a page lies in a directory of its own, and a value that is missing or leads elsewhere is reported,
the first one from the left (`outputPath_filled`).
-/

namespace StaticSite

open Text

/-! ## Names with placeholders -/

namespace NamePiece

/-- What a placeholder can be called. -/
def IsParam (name : List Char) : Prop := name ≠ [] ∧ ∀ c ∈ name, isWord c = true

/-- A placeholder as it is written. -/
def bracketed (name : List Char) : List Char := '[' :: (name ++ [']'])

/-- Text without a placeholder. -/
def IsLiteral (s : List Char) : Prop := ∀ name, IsParam name → ¬ bracketed name <:+: s

/-- A placeholder, and the text up to the next one. -/
structure Hole where
  /-- what the placeholder is called -/
  param : List Char
  /-- the text behind it -/
  behind : List Char
  /-- it can be called so -/
  isParam : IsParam param
  /-- there is no other placeholder in the text -/
  isLiteral : IsLiteral behind

/-- A name: text, and placeholders with text behind each of them. -/
structure Stem where
  /-- the text in front of the first placeholder -/
  first : List Char
  /-- the placeholders -/
  holes : List Hole
  /-- there is no placeholder in the text -/
  isLiteral : IsLiteral first

/-- The spelling of a placeholder and the text behind it. -/
def Hole.chars (hole : Hole) : List Char := bracketed hole.param ++ hole.behind

/-- The spelling of a name. -/
def Stem.chars (stem : Stem) : List Char := stem.first ++ stem.holes.flatMap Hole.chars

/-- The pieces of a placeholder and the text behind it. -/
def Hole.pieces (hole : Hole) : List NamePiece :=
  .placeholder hole.param :: hole.behind.map .plain

/-- The pieces of a name. -/
def Stem.pieces (stem : Stem) : List NamePiece :=
  stem.first.map .plain ++ stem.holes.flatMap Hole.pieces

variable {s t name rest : List Char}

theorem placeholderAt?_eq_some :
    placeholderAt? s = some (name, rest) ↔ IsParam name ∧ s = bracketed name ++ rest := by
  constructor
  · intro h
    unfold placeholderAt? at h
    split at h
    · next t =>
      split at h
      · next r hd =>
        split at h
        · cases h
        · next hne =>
          cases h
          refine ⟨⟨hne, fun c hc => List.mem_takeWhile_imp hc⟩, ?_⟩
          have hsplit := List.takeWhile_append_dropWhile (p := isWord) (l := t)
          rw [hd] at hsplit
          rw [bracketed, List.cons_append, List.append_assoc]
          exact congrArg _ hsplit.symm
      · cases h
    · cases h
  · rintro ⟨⟨hne, hword⟩, rfl⟩
    have hend : ∀ c, (']' :: rest).head? = some c → isWord c = false := by
      rintro c ⟨⟩
      decide
    rw [bracketed, List.cons_append, List.append_assoc, List.singleton_append, placeholderAt?,
      Markup.dropWhile_append_of_head hword hend, Markup.takeWhile_append_of_head hword hend]
    exact if_neg hne

theorem placeholderAt?_bracketed (h : IsParam name) (rest : List Char) :
    placeholderAt? (bracketed name ++ rest) = some (name, rest) :=
  placeholderAt?_eq_some.2 ⟨h, rfl⟩

/-- A placeholder that starts in a text without one would have to end behind it, but there is no
bracket in one. -/
theorem placeholderAt?_literal (hs : IsLiteral s) (hne : s ≠ [])
    (ht : ∀ c, t.head? = some c → c = '[') : placeholderAt? (s ++ t) = none := by
  rw [Option.eq_none_iff_forall_ne_some]
  rintro ⟨name, rest⟩ h
  obtain ⟨hname, hsplit⟩ := placeholderAt?_eq_some.1 h
  rcases List.append_eq_append_iff.1 hsplit with ⟨more, hmore, hrest⟩ | ⟨inside, rfl, -⟩
  · rcases more with _ | ⟨c, more⟩
    · rw [List.append_nil] at hmore
      exact hs name hname (hmore ▸ List.infix_refl _)
    · obtain rfl := ht c (by rw [hrest]; rfl)
      obtain ⟨d, s, rfl⟩ := List.exists_cons_of_ne_nil hne
      have hmem : '[' ∈ name ++ [']'] := by
        rw [(List.cons.inj hmore).2]
        simp
      rcases List.mem_append.1 hmem with hmem | hmem
      · exact absurd (hname.2 _ hmem) (by decide)
      · exact absurd hmem (by decide)
  · exact hs name hname (List.prefix_append _ _).isInfix

theorem isParam_singleton {c : Char} (h : isWord c = true) : IsParam [c] :=
  ⟨List.cons_ne_nil _ _, List.forall_mem_singleton.2 h⟩

theorem isLiteral_nil : IsLiteral [] := fun _ _ hinfix => by cases List.infix_nil.1 hinfix

theorem IsLiteral.tail {c : Char} (h : IsLiteral (c :: s)) : IsLiteral s :=
  fun name hname hinfix => h name hname (List.infix_cons hinfix)

theorem ofName_literal (hs : IsLiteral s) (ht : ∀ c, t.head? = some c → c = '[') :
    ofName (s ++ t) = s.map .plain ++ ofName t := by
  induction s with
  | nil => rfl
  | cons c s ih =>
    have hnone := placeholderAt?_literal hs (List.cons_ne_nil c s) ht
    rw [List.cons_append] at hnone ⊢
    rw [ofName]
    split
    · next hsome => cases hnone.symm.trans hsome
    · rw [ih hs.tail]
      rfl

theorem ofName_bracketed (h : IsParam name) (rest : List Char) :
    ofName (bracketed name ++ rest) = .placeholder name :: ofName rest := by
  have hsome := placeholderAt?_bracketed h rest
  rw [bracketed, List.cons_append] at hsome ⊢
  rw [ofName]
  split
  · next hsome' =>
    cases hsome.symm.trans hsome'
    rfl
  · next hnone => cases hnone.symm.trans hsome

theorem head?_holes (holes : List Hole) :
    ∀ c, (holes.flatMap Hole.chars).head? = some c → c = '[' := by
  intro c hc
  rcases holes with _ | ⟨hole, holes⟩
  · cases hc
  · exact (Option.some.inj hc).symm

theorem ofName_holes (holes : List Hole) :
    ofName (holes.flatMap Hole.chars) = holes.flatMap Hole.pieces := by
  induction holes with
  | nil =>
    rw [List.flatMap_nil, ofName]
    rfl
  | cons hole holes ih =>
    rw [List.flatMap_cons, Hole.chars, List.append_assoc, ofName_bracketed hole.isParam,
      ofName_literal hole.isLiteral (head?_holes holes), ih]
    rfl

/-- The pieces of a name are its placeholders and the text between them. -/
theorem ofName_chars (stem : Stem) : ofName stem.chars = stem.pieces := by
  rw [Stem.chars, ofName_literal stem.isLiteral (head?_holes stem.holes), ofName_holes, Stem.pieces]

/-- Every text is a name with placeholders, if only with none. -/
theorem exists_stem (s : List Char) : ∃ stem : Stem, stem.chars = s := by
  fun_induction ofName s with
  | case1 => exact ⟨⟨[], [], isLiteral_nil⟩, rfl⟩
  | case2 c t name rest hplaceholder ih =>
    obtain ⟨stem, hstem⟩ := ih
    obtain ⟨hname, hsplit⟩ := placeholderAt?_eq_some.1 hplaceholder
    refine ⟨⟨[], ⟨name, stem.first, hname, stem.isLiteral⟩ :: stem.holes, isLiteral_nil⟩, ?_⟩
    rw [hsplit, ← hstem]
    simp [Stem.chars, Hole.chars]
  | case3 c t hnone ih =>
    obtain ⟨stem, hstem⟩ := ih
    refine ⟨⟨c :: stem.first, stem.holes, fun name hname hinfix => ?_⟩, congrArg _ hstem⟩
    rcases List.infix_cons_iff.1 hinfix with ⟨more, hmore⟩ | hlater
    · have hsome := placeholderAt?_bracketed hname (more ++ stem.holes.flatMap Hole.chars)
      rw [← List.append_assoc, hmore, List.cons_append, ← Stem.chars, hstem, hnone] at hsome
      cases hsome
    · exact stem.isLiteral name hname hlater

end NamePiece

namespace Path

/-! ## Names below the empty path -/

theorem getLast?_append_ne_slash (s : String) {name : String} (h : IsFileName name) :
    (s ++ name).toList.getLast? ≠ some '/' := by
  intro hslash
  rw [String.toList_append, List.getLast?_append] at hslash
  rcases hend : name.toList.getLast? with _ | c
  · exact h.nonempty (String.toList_eq_nil_iff.1 (List.getLast?_eq_none_iff.1 hend))
  · rw [hend, Option.some_or] at hslash
    exact h.plain.1 (List.mem_of_getLast? (hend.trans hslash))

theorem child_of_text {s name : String} (hs : s.toList.getLast? ≠ some '/') (hne : s ≠ "")
    (hname : IsFileName name) : (⟨s⟩ : Path).child name = ⟨s ++ "/" ++ name⟩ := by
  have hrelative := isAbsolute_of_plain hname.plain.1
  rw [child, join, if_neg (by simp [hrelative]), if_neg (not_or.2 ⟨hne, hs⟩)]

/-- The names below a name are put together with slashes. -/
theorem foldl_child_of_text {s : String} {names : List String}
    (hs : s.toList.getLast? ≠ some '/') (hne : s ≠ "") (h : ∀ name ∈ names, IsFileName name) :
    names.foldl child ⟨s⟩ = ⟨"/".intercalate (s :: names)⟩ := by
  induction names generalizing s with
  | nil => rfl
  | cons name names ih =>
    have hname := h name List.mem_cons_self
    rw [List.foldl_cons, child_of_text hs hne hname,
      ih (getLast?_append_ne_slash (s ++ "/") hname) (by simp)
        fun n hn => h n (List.mem_cons_of_mem _ hn)]
    rcases names with _ | ⟨next, names⟩
    · rfl
    · simp only [String.intercalate_cons_cons, String.append_assoc]

theorem foldl_child_of_empty {names : List String} (h : ∀ name ∈ names, IsFileName name) :
    names.foldl child ⟨""⟩ = ⟨"/".intercalate names⟩ := by
  rcases names with _ | ⟨name, names⟩
  · rfl
  · have hname := h name List.mem_cons_self
    have hfirst : (⟨""⟩ : Path).child name = ⟨name⟩ :=
      join_of_empty rfl (isAbsolute_of_plain hname.plain.1)
    rw [List.foldl_cons, hfirst]
    exact foldl_child_of_text (fun hslash => hname.plain.1 (List.mem_of_getLast? hslash))
      hname.nonempty fun n hn => h n (List.mem_cons_of_mem _ hn)

theorem relativeTo_empty {names : List String} (h : ∀ name ∈ names, IsFileName name) :
    (⟨"/".intercalate names⟩ : Path).relativeTo ⟨""⟩ = ⟨"/".intercalate names⟩ := by
  rcases names with _ | ⟨name, names⟩
  · decide
  · have hparts : (⟨""⟩ : Path).parts = [] := parts_of_empty rfl
    rw [relativeTo, below?, hparts, List.isPrefixOf_nil_left, if_pos rfl, if_pos rfl, body,
      head?_intercalate h, segments_intercalate h (List.cons_ne_nil _ _)]
    change (some (assemble none (dropIdleEnd (name :: names)))).getD _ = _
    rw [dropIdleEnd_of_isFileName h]
    rfl

/-- The names behind a directory are what is left when it is taken off again, also behind the empty
path. -/
theorem relativeTo_names (p : Path) {names : List String} (h : ∀ name ∈ names, IsFileName name) :
    (names.foldl child p).relativeTo p = ⟨"/".intercalate names⟩ := by
  by_cases htext : p.text = ""
  · obtain ⟨text⟩ := p
    obtain rfl : text = "" := htext
    rw [foldl_child_of_empty h, relativeTo_empty h]
  · exact relativeTo_foldl_child htext h

end Path

namespace Page

/-- **A page is dynamic if there is a word in brackets in its name**, wherever it stands. -/
theorem isDynamic_iff {source : Path} {stem : String} (hstem : source.stem? = some stem) :
    isDynamic source = true ↔
      ∃ name, NamePiece.IsParam name ∧ NamePiece.bracketed name <:+: stem.toList := by
  obtain ⟨s, hs⟩ := NamePiece.exists_stem stem.toList
  rw [isDynamic, hstem, Option.any_some, ← hs, NamePiece.ofName_chars, List.any_eq_true]
  constructor
  · rintro ⟨piece, hpiece, hplaceholder⟩
    rcases List.mem_append.1 hpiece with hplain | hhole
    · obtain ⟨c, -, rfl⟩ := List.mem_map.1 hplain
      cases hplaceholder
    · obtain ⟨hole, hhole, -⟩ := List.mem_flatMap.1 hhole
      obtain ⟨before, after, hsplit⟩ := List.append_of_mem hhole
      refine ⟨hole.param, hole.isParam, s.first ++ before.flatMap NamePiece.Hole.chars,
        hole.behind ++ after.flatMap NamePiece.Hole.chars, ?_⟩
      simp [NamePiece.Stem.chars, NamePiece.Hole.chars, hsplit]
  · rintro ⟨name, hname, hinfix⟩
    rcases hholes : s.holes with _ | ⟨hole, holes⟩
    · rw [NamePiece.Stem.chars, hholes, List.flatMap_nil, List.append_nil] at hinfix
      exact absurd hinfix (s.isLiteral name hname)
    · exact ⟨.placeholder hole.param, by simp [NamePiece.Stem.pieces, NamePiece.Hole.pieces, hholes],
        rfl⟩

/-! ## Values -/

/-- A value that a route can give for a placeholder. -/
structure IsValue (value : String) : Prop where
  /-- it is not empty -/
  nonempty : value ≠ ""
  /-- it is not a single dot -/
  ne_dot : value ≠ "."
  /-- it has no slash and no backslash -/
  plain : '/' ∉ value.toList ∧ '\\' ∉ value.toList
  /-- there are no two dots side by side in it -/
  noDots : ¬ ['.', '.'] <:+: value.toList

theorem isSafeValue_iff {value : String} : isSafeValue value = true ↔ IsValue value := by
  have hdots : (cut? ['.', '.'] value.toList).isSome = true ↔ ['.', '.'] <:+: value.toList := by
    constructor
    · intro hsome
      obtain ⟨⟨before, rest⟩, hcut⟩ := Option.isSome_iff_exists.1 hsome
      exact ⟨before, rest, (cut?_eq_some hcut).symm⟩
    · intro hinfix
      obtain ⟨before, rest, hcut⟩ := exists_cut?_of_infix hinfix
      rw [hcut]
      rfl
  have hdots' : (cut? ['.', '.'] value.toList).isSome = false ↔ ¬ ['.', '.'] <:+: value.toList := by
    rw [← hdots, Bool.not_eq_true]
  constructor
  · intro h
    simp only [isSafeValue, Bool.not_eq_true', Bool.or_eq_false_iff, beq_eq_false_iff_ne,
      List.contains_eq_mem, decide_eq_false_iff_not, hdots'] at h
    obtain ⟨⟨⟨⟨hne, hdot⟩, hslash⟩, hback⟩, hdots⟩ := h
    exact ⟨hne, hdot, ⟨hslash, hback⟩, hdots⟩
  · rintro ⟨hne, hdot, ⟨hslash, hback⟩, hdots⟩
    simp only [isSafeValue, Bool.not_eq_true', Bool.or_eq_false_iff, beq_eq_false_iff_ne,
      List.contains_eq_mem, decide_eq_false_iff_not, hdots']
    exact ⟨⟨⟨⟨hne, hdot⟩, hslash⟩, hback⟩, hdots⟩

/-- The route has a value for a placeholder. -/
def Fits (params : Dict String) (hole : NamePiece.Hole) : Prop :=
  ∃ value, Dict.get? (String.ofList hole.param) params = some value ∧ IsValue value

/-- What a placeholder that has no value is reported as. -/
def offence (source : Path) (index : Nat) (params : Dict String) (hole : NamePiece.Hole) :
    BuildError :=
  match Dict.get? (String.ofList hole.param) params with
  | none => .missingRouteParam source (String.ofList hole.param) index
  | some value => .invalidRouteParam source (String.ofList hole.param) value index

/-- The value for a placeholder. -/
def valueOf (params : Dict String) (name : List Char) : List Char :=
  ((Dict.get? (String.ofList name) params).getD "").toList

/-- A name with the values of a route in the places of its placeholders. -/
def filled (params : Dict String) (stem : NamePiece.Stem) : String :=
  String.ofList (stem.first ++
    stem.holes.flatMap fun hole => valueOf params hole.param ++ hole.behind)

/-- A name that leads into a directory of its own. -/
structure IsOrdinary (name : String) : Prop where
  /-- it is not empty -/
  nonempty : name ≠ ""
  /-- it has no slash -/
  plain : '/' ∉ name.toList
  /-- it is neither of the two names that every directory has -/
  noDots : name ≠ "." ∧ name ≠ ".."

variable {source : Path} {index : Nat} {params : Dict String} {stem : NamePiece.Stem}
  {hole : NamePiece.Hole}

/-- A piece with the values of a route put in. -/
def filledPiece (params : Dict String) : NamePiece → List Char
  | .plain c => [c]
  | .placeholder name => valueOf params name

theorem fillPiece_of_fits (h : Fits params hole) :
    ∀ piece ∈ hole.pieces, fillPiece source index params piece = .ok (filledPiece params piece) := by
  obtain ⟨value, hvalue, hgood⟩ := h
  intro piece hpiece
  rcases List.mem_cons.1 hpiece with rfl | hplain
  · simp only [fillPiece, filledPiece, valueOf, hvalue, isSafeValue_iff.2 hgood, if_true,
      Option.getD_some]
  · obtain ⟨c, -, rfl⟩ := List.mem_map.1 hplain
    rfl

theorem fillPiece_of_not_fits (h : ¬ Fits params hole) :
    fillPiece source index params (.placeholder hole.param) =
      .error (offence source index params hole) := by
  simp only [fillPiece, offence]
  rcases hvalue : Dict.get? (String.ofList hole.param) params with _ | value
  · rfl
  · have hbad : ¬ isSafeValue value = true := fun hsafe =>
      h ⟨value, hvalue, isSafeValue_iff.1 hsafe⟩
    simp only [if_neg hbad]

theorem fillPiece_of_first (piece : NamePiece) (h : piece ∈ stem.first.map NamePiece.plain) :
    fillPiece source index params piece = .ok (filledPiece params piece) := by
  obtain ⟨c, -, rfl⟩ := List.mem_map.1 h
  rfl

theorem flatten_pieces (params : Dict String) (stem : NamePiece.Stem) :
    String.ofList (stem.pieces.map (filledPiece params)).flatten = filled params stem := by
  have hplain (s : List Char) : (s.map NamePiece.plain).flatMap (filledPiece params) = s := by
    rw [List.flatMap_map]
    exact List.flatMap_singleton' s
  have hhole (hole : NamePiece.Hole) : hole.pieces.flatMap (filledPiece params) =
      valueOf params hole.param ++ hole.behind := by
    rw [NamePiece.Hole.pieces, List.flatMap_cons, hplain]
    rfl
  rw [← List.flatMap_def, NamePiece.Stem.pieces, List.flatMap_append, hplain, List.flatMap_assoc,
    filled]
  simp only [hhole]

/-- With a value for each placeholder they are put in. -/
theorem fillName_of_fits (h : ∀ hole ∈ stem.holes, Fits params hole) :
    fillName source index params (String.ofList stem.chars) = .ok (filled params stem) := by
  have hpieces : stem.pieces.mapM (fillPiece source index params) =
      .ok (stem.pieces.map (filledPiece params)) := by
    refine mapM_of_forall fun piece hpiece => ?_
    rcases List.mem_append.1 hpiece with hfirst | hrest
    · exact fillPiece_of_first piece hfirst
    · obtain ⟨hole, hhole, hpiece⟩ := List.mem_flatMap.1 hrest
      exact fillPiece_of_fits (h hole hhole) piece hpiece
  rw [fillName, String.toList_ofList, NamePiece.ofName_chars, hpieces, ← flatten_pieces]
  rfl

/-- The first placeholder without one is reported. -/
theorem fillName_of_not_fits {before after : List NamePiece.Hole}
    (hholes : stem.holes = before ++ hole :: after) (hbefore : ∀ other ∈ before, Fits params other)
    (h : ¬ Fits params hole) : fillName source index params (String.ofList stem.chars) =
      .error (offence source index params hole) := by
  have hsplit : stem.pieces = (stem.first.map .plain ++ before.flatMap NamePiece.Hole.pieces) ++
      .placeholder hole.param ::
        (hole.behind.map .plain ++ after.flatMap NamePiece.Hole.pieces) := by
    rw [NamePiece.Stem.pieces, hholes, List.flatMap_append, List.flatMap_cons, NamePiece.Hole.pieces]
    simp
  have hpieces : stem.pieces.mapM (fillPiece source index params) =
      .error (offence source index params hole) := by
    rw [hsplit]
    refine mapM_of_first (g := filledPiece params) (fun piece hpiece => ?_) (fillPiece_of_not_fits h)
    rcases List.mem_append.1 hpiece with hfirst | hrest
    · exact fillPiece_of_first piece hfirst
    · obtain ⟨other, hother, hpiece⟩ := List.mem_flatMap.1 hrest
      exact fillPiece_of_fits (hbefore other hother) piece hpiece
  rw [fillName, String.toList_ofList, NamePiece.ofName_chars, hpieces]
  rfl

theorem toList_filled (params : Dict String) (stem : NamePiece.Stem) : (filled params stem).toList =
    stem.first ++ stem.holes.flatMap fun hole => valueOf params hole.param ++ hole.behind :=
  String.toList_ofList

theorem slash_notMem_filled (hslash : '/' ∉ stem.chars) (h : ∀ hole ∈ stem.holes, Fits params hole) :
    '/' ∉ (filled params stem).toList := by
  rw [toList_filled, List.mem_append]
  rintro (hfirst | hrest)
  · exact hslash (List.mem_append_left _ hfirst)
  · obtain ⟨hole, hhole, hmem⟩ := List.mem_flatMap.1 hrest
    rcases List.mem_append.1 hmem with hmem | hmem
    · obtain ⟨value, hvalue, hgood⟩ := h hole hhole
      rw [valueOf, hvalue] at hmem
      exact hgood.plain.1 hmem
    · exact hslash (List.mem_append_right _
        (List.mem_flatMap.2 ⟨hole, hhole, List.mem_append_right _ hmem⟩))

theorem exists_ne_dot_filled (hholes : stem.holes ≠ []) (h : ∀ hole ∈ stem.holes, Fits params hole) :
    ∃ c ∈ (filled params stem).toList, c ≠ '.' := by
  obtain ⟨hole, hhole⟩ := List.exists_mem_of_ne_nil _ hholes
  obtain ⟨value, hvalue, hgood⟩ := h hole hhole
  obtain ⟨c, hc, hne⟩ := exists_ne_dot_of_isSafeValue (isSafeValue_iff.2 hgood)
  refine ⟨c, ?_, hne⟩
  have hmem : c ∈ valueOf params hole.param := by
    rw [valueOf, hvalue]
    exact hc
  rw [toList_filled]
  exact List.mem_append_right _ (List.mem_flatMap.2 ⟨hole, hhole, List.mem_append_left _ hmem⟩)

/-- Values that are checked one by one give a name that leads nowhere else. -/
theorem isOrdinary_filled (hslash : '/' ∉ stem.chars) (hholes : stem.holes ≠ [])
    (h : ∀ hole ∈ stem.holes, Fits params hole) : IsOrdinary (filled params stem) := by
  obtain ⟨c, hc, hne⟩ := exists_ne_dot_filled hholes h
  have hother {name : String} (hdots : ∀ d ∈ name.toList, d = '.') : filled params stem ≠ name := by
    intro heq
    exact hne (hdots c (heq ▸ hc))
  exact ⟨hother (by simp), slash_notMem_filled hslash h, hother (by simp), hother (by simp)⟩

/-- The first placeholder without a value. -/
theorem exists_first (params : Dict String) (holes : List NamePiece.Hole) : (∀ hole ∈ holes, Fits params hole) ∨
    ∃ before hole after, holes = before ++ hole :: after ∧
      (∀ other ∈ before, Fits params other) ∧ ¬ Fits params hole := by
  induction holes with
  | nil => exact .inl fun hole hmem => absurd hmem List.not_mem_nil
  | cons hole holes ih =>
    by_cases hfits : Fits params hole
    · rcases ih with hall | ⟨before, other, after, rfl, hbefore, hother⟩
      · exact .inl (List.forall_mem_cons.2 ⟨hfits, hall⟩)
      · exact .inr ⟨hole :: before, other, after, rfl, List.forall_mem_cons.2 ⟨hfits, hbefore⟩, hother⟩
    · exact .inr ⟨[], hole, holes, rfl, fun other hmem => absurd hmem List.not_mem_nil, hfits⟩

/-! ## Where the document lies -/

theorem lead_of_isOrdinary {name : String} (h : IsOrdinary name) (l : Location) :
    Path.lead l name = l ++ [name] := by
  rw [Path.lead, if_neg (by simp [Path.isIdle, h.nonempty, h.noDots.1]), if_neg h.noDots.2]

theorem place_of_isOrdinary {name : String} (h : IsOrdinary name) (here : Location) (output : Path)
    {names : List String} (hnames : ∀ name ∈ names, IsFileName name) :
    (((mirrored output names).child name).child "index.html").place here =
      output.place here ++ names.dropLast ++ [name, "index.html"] := by
  rw [place_index, Path.place_child here _ h.plain, place_mirrored here output hnames,
    lead_of_isOrdinary h, List.append_assoc _ [name]]
  rfl

/-- A name with a placeholder is not `index`. -/
theorem stem_ne_index (hholes : stem.holes ≠ []) : String.ofList stem.chars ≠ "index" := by
  obtain ⟨hole, hhole⟩ := List.exists_mem_of_ne_nil _ hholes
  have hmem : '[' ∈ stem.chars :=
    List.mem_append_right _ (List.mem_flatMap.2 ⟨hole, hhole, List.mem_cons_self⟩)
  intro heq
  have hchars : stem.chars = "index".toList := by rw [← heq, String.toList_ofList]
  rw [hchars] at hmem
  exact absurd hmem (by decide)

theorem outputPath_stem {pages : Path} (output : Path) {names : List String}
    (hnames : ∀ name ∈ names, IsFileName name)
    (hstem : (names.foldl Path.child pages).stem? = some (String.ofList stem.chars))
    (hholes : stem.holes ≠ []) (index : Nat) (route : Route) :
    outputPath pages output (names.foldl Path.child pages) (some (index, route)) =
      (fillName (names.foldl Path.child pages) index route.params (String.ofList stem.chars)).map
        fun name => ((mirrored output names).child name).child "index.html" := by
  have hdir : ((names.foldl Path.child pages).relativeTo pages).parent?.getD ⟨""⟩ =
      ⟨"/".intercalate names.dropLast⟩ := by
    rw [Path.relativeTo_names pages hnames, Path.parent?_intercalate hnames]
  simp only [outputPath, hdir, hstem, Option.getD_some, if_neg (stem_ne_index hholes)]
  rfl

/-- **Pages with placeholders.** A page has an output for a route exactly if each placeholder has a
value that is not empty, not a dot, and without slashes, backslashes and double dots. The values are
put in as they are, and the document lies in the directory with that name, right below the one that
mirrors the page's own. Otherwise the first placeholder from the left without such a value is
reported. -/
theorem outputPath_filled {pages : Path} (output : Path) {names : List String}
    (hnames : ∀ name ∈ names, IsFileName name) {stem : NamePiece.Stem}
    (hstem : (names.foldl Path.child pages).stem? = some (String.ofList stem.chars))
    (hholes : stem.holes ≠ []) (index : Nat) (route : Route) :
    ((∃ p, outputPath pages output (names.foldl Path.child pages) (some (index, route)) = .ok p) ↔
      ∀ hole ∈ stem.holes, Fits route.params hole) ∧
    (∀ p, outputPath pages output (names.foldl Path.child pages) (some (index, route)) = .ok p →
      p = ((mirrored output names).child (filled route.params stem)).child "index.html" ∧
      IsOrdinary (filled route.params stem) ∧
      ∀ here, p.place here =
        output.place here ++ names.dropLast ++ [filled route.params stem, "index.html"]) ∧
    (∀ e, outputPath pages output (names.foldl Path.child pages) (some (index, route)) = .error e →
      ∃ before hole after, stem.holes = before ++ hole :: after ∧
        (∀ other ∈ before, Fits route.params other) ∧ ¬ Fits route.params hole ∧
        e = offence (names.foldl Path.child pages) index route.params hole) := by
  have hslash : '/' ∉ stem.chars := by
    have hplain := Path.notMem_stem (names.foldl Path.child pages)
    rwa [hstem, Option.getD_some, String.toList_ofList] at hplain
  have houtput := outputPath_stem output hnames hstem hholes index route
  rcases exists_first route.params stem.holes with
    hall | ⟨before, hole, after, hsplit, hbefore, hhole⟩
  · rw [fillName_of_fits hall] at houtput
    rw [houtput]
    have hordinary := isOrdinary_filled hslash hholes hall
    refine ⟨iff_of_true ⟨_, rfl⟩ hall, ?_, fun e he => by cases he⟩
    rintro p ⟨⟩
    exact ⟨rfl, hordinary, fun here => place_of_isOrdinary hordinary here output hnames⟩
  · rw [fillName_of_not_fits hsplit hbefore hhole] at houtput
    rw [houtput]
    have hmem : hole ∈ stem.holes := by
      rw [hsplit]
      exact List.mem_append_right _ List.mem_cons_self
    refine ⟨iff_of_false ?_ fun hall => hhole (hall hole hmem), ?_, ?_⟩
    · rintro ⟨p, ⟨⟩⟩
    · rintro p ⟨⟩
    · rintro e ⟨⟩
      exact ⟨before, hole, after, hsplit, hbefore, hhole, rfl⟩

/-- The name `[a][b]`. -/
def sideBySide : NamePiece.Stem where
  first := []
  holes := [⟨['a'], [], NamePiece.isParam_singleton (by decide), NamePiece.isLiteral_nil⟩,
    ⟨['b'], [], NamePiece.isParam_singleton (by decide), NamePiece.isLiteral_nil⟩]
  isLiteral := NamePiece.isLiteral_nil

/-- Two dots from two values may meet, and lead nowhere else. -/
theorem outputPath_filled_dots :
    outputPath ⟨"pages"⟩ ⟨"dist"⟩ (["[a][b].vue"].foldl Path.child ⟨"pages"⟩)
        (some (0, ⟨[("a", "v."), ("b", ".w")], []⟩)) = .ok ⟨"dist/v..w/index.html"⟩ ∧
      IsOrdinary "v..w" := by
  have hnames : ∀ name ∈ ["[a][b].vue"], IsFileName name := by decide +kernel
  have hstem : (["[a][b].vue"].foldl Path.child ⟨"pages"⟩).stem? =
      some (String.ofList sideBySide.chars) := by decide +kernel
  have hname : filled [("a", "v."), ("b", ".w")] sideBySide = "v..w" := by decide +kernel
  obtain ⟨hiff, hok, -⟩ := outputPath_filled ⟨"dist"⟩ hnames hstem (List.cons_ne_nil _ _)
    0 ⟨[("a", "v."), ("b", ".w")], []⟩
  have hfits : ∀ hole ∈ sideBySide.holes, Fits [("a", "v."), ("b", ".w")] hole := by
    refine List.forall_mem_cons.2 ⟨⟨"v.", rfl, isSafeValue_iff.1 (by decide)⟩, ?_⟩
    exact List.forall_mem_singleton.2 ⟨".w", rfl, isSafeValue_iff.1 (by decide)⟩
  obtain ⟨p, hp⟩ := hiff.2 hfits
  obtain ⟨hpath, hordinary, -⟩ := hok p hp
  rw [hname] at hpath hordinary
  have htext : ((mirrored ⟨"dist"⟩ ["[a][b].vue"]).child "v..w").child "index.html" =
      ⟨"dist/v..w/index.html"⟩ := by decide +kernel
  exact ⟨hp.trans (congrArg _ (hpath.trans htext)), hordinary⟩

end Page

end StaticSite
