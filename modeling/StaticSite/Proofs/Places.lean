import Mathlib.Data.List.Induction
import StaticSite.Proofs.Writes

/-!
# Paths put together

What a path leads to is known from its stretches. A relative path or a name that is put behind
another path adds stretches to those in its `front`, which leaves out the empty one behind a slash at
the end. So names that are put behind a directory lead on from where it leads (`place_join`,
`locate?_child`), and they are what is left when the directory is taken off again
(`relativeTo_foldl_child`).
-/

namespace StaticSite

open Text

namespace Path

variable {p q : Path}

/-! ## Stretches -/

/-- The stretches of a path behind which others are put, so without an empty one at the end. -/
def front (p : Path) : List String :=
  if p.segments.getLast? = some "" then p.segments.dropLast else p.segments

theorem segments_eq (p : Path) : p.segments = p.front ∨ p.segments = p.front ++ [""] := by
  rw [front]
  split
  · next h => exact .inr (List.dropLast_append_getLast? _ h).symm
  · exact .inl rfl

theorem segments_ne_nil (p : Path) : p.segments ≠ [] := by
  rw [segments, Ne, List.map_eq_nil_iff]
  exact splitOn_ne_nil _ _

theorem segments_of_text (h : p.text = "") : p.segments = [""] := by simp [segments, h, splitOn]

theorem text_ne_of_segments {init : List String} {name : String} (h : p.segments = init ++ [name])
    (hname : name ≠ "") : p.text ≠ "" := by
  intro htext
  have hlast := congrArg List.getLast? ((segments_of_text htext).symm.trans h)
  rw [List.getLast?_concat] at hlast
  exact hname (Option.some.inj hlast).symm

theorem segments_of_plain {name : String} (h : '/' ∉ name.toList) :
    (⟨name⟩ : Path).segments = [name] := by
  rw [segments, splitOn_of_notMem h, List.map_singleton, String.ofList_toList]

theorem segments_append_slash (s t : String) :
    (⟨s ++ "/" ++ t⟩ : Path).segments = (⟨s⟩ : Path).segments ++ (⟨t⟩ : Path).segments := by
  have hchars : (s ++ "/" ++ t).toList = s.toList ++ '/' :: t.toList := by simp
  rw [segments, segments, segments, hchars, splitOn_append_cons, List.map_append]

theorem front_of_getLast? (h : p.text.toList.getLast? ≠ some '/') (hne : p.text ≠ "") :
    p.front = p.segments := by
  rw [front, if_neg]
  intro hlast
  rw [segments, List.getLast?_map, Option.map_eq_some_iff] at hlast
  obtain ⟨part, hpart, hempty⟩ := hlast
  obtain rfl : part = [] := by simpa using congrArg String.toList hempty
  rcases getLast?_splitOn hpart with hnil | hslash
  · exact hne (String.toList_eq_nil_iff.1 hnil)
  · exact h hslash

/-- A relative path behind another path adds its stretches to those in front. -/
theorem segments_join (p : Path) (hq : q.isAbsolute = false) :
    (p.join q).segments = p.front ++ q.segments := by
  rw [join, hq, if_neg Bool.false_ne_true]
  split
  · next h =>
    by_cases hnil : p.text = ""
    · have hp : p.front = [] := by
        rw [front, segments_of_text hnil]
        rfl
      rw [hp, hnil, String.empty_append, List.nil_append]
    · -- a slash at the end is what the stretches are put behind
      obtain ⟨s, hs⟩ : ∃ s : List Char, p.text.toList = s ++ ['/'] :=
        ⟨_, (List.dropLast_append_getLast? _ (h.resolve_left hnil)).symm⟩
      obtain rfl : p = ⟨String.ofList s ++ "/"⟩ := by
        obtain ⟨text⟩ := p
        rw [mk.injEq, String.ext_iff]
        simpa using hs
      have hsegments := segments_append_slash (String.ofList s) ""
      rw [String.append_empty] at hsegments
      rw [segments_append_slash, front, hsegments]
      simp [segments, splitOn]
  · next h =>
    rw [not_or] at h
    rw [segments_append_slash, front_of_getLast? h.2 h.1]

theorem isAbsolute_join (p : Path) (hq : q.isAbsolute = false) :
    (p.join q).isAbsolute = p.isAbsolute := by
  rw [join, hq, if_neg Bool.false_ne_true]
  rcases hp : p.text.toList with _ | ⟨c, s⟩
  · obtain hnil : p.text = "" := String.toList_eq_nil_iff.1 hp
    rw [hnil, if_pos (.inl rfl), String.empty_append, hq, isAbsolute, hp]
    rfl
  · split <;> simp [isAbsolute, hp]

theorem isAbsolute_of_plain {name : String} (h : '/' ∉ name.toList) :
    (⟨name⟩ : Path).isAbsolute = false := by
  rw [isAbsolute, decide_eq_false_iff_not]
  exact fun hhead => h (List.mem_of_head? hhead)

theorem segments_child (p : Path) {name : String} (h : '/' ∉ name.toList) :
    (p.child name).segments = p.front ++ [name] := by
  rw [child, segments_join p (isAbsolute_of_plain h), segments_of_plain h]

theorem front_child (p : Path) {name : String} (h : '/' ∉ name.toList) (hne : name ≠ "") :
    (p.child name).front = p.front ++ [name] := by
  rw [front, segments_child p h, List.getLast?_concat, if_neg]
  exact fun heq => hne (Option.some.inj heq)

/-- Names behind a path are its last stretches. -/
theorem front_foldl_child (p : Path) {names : List String} (h : ∀ name ∈ names, IsFileName name) :
    (names.foldl child p).front = p.front ++ names := by
  induction names using List.reverseRecOn with
  | nil => rw [List.foldl_nil, List.append_nil]
  | append_singleton names name ih =>
    have hname := h name (by simp)
    rw [List.foldl_concat, front_child _ hname.plain.1 hname.nonempty,
      ih fun name hmem => h name (List.mem_append_left _ hmem), List.append_assoc]

/-! ## Places -/

theorem place_eq_front (here : Location) (p : Path) :
    p.place here = p.front.foldl lead (if p.isAbsolute then [] else here) := by
  rw [place, placeOf]
  rcases p.segments_eq with h | h
  · rw [h]
  · rw [h, List.foldl_concat]
    rfl

/-- A relative path leads on from where the path in front of it leads. -/
theorem place_join (here : Location) (p : Path) (hq : q.isAbsolute = false) :
    (p.join q).place here = q.segments.foldl lead (p.place here) := by
  rw [place, placeOf, segments_join p hq, isAbsolute_join p hq, List.foldl_append, ← place_eq_front]

theorem place_child (here : Location) (p : Path) {name : String} (h : '/' ∉ name.toList) :
    (p.child name).place here = lead (p.place here) name := by
  rw [child, place_join here p (isAbsolute_of_plain h), segments_of_plain h]
  rfl

theorem foldl_lead_of_isFileName (l : Location) {names : List String}
    (h : ∀ name ∈ names, IsFileName name) : names.foldl lead l = l ++ names := by
  induction names using List.reverseRecOn with
  | nil => rw [List.foldl_nil, List.append_nil]
  | append_singleton names name ih =>
    rw [List.foldl_concat, ih fun name hmem => h name (List.mem_append_left _ hmem),
      lead_of_isFileName (h name (by simp)), List.append_assoc]

/-! ## Heads -/

/-- Only a slash at the start makes the first stretch of a path empty. -/
theorem head?_segments_ne_empty {c : Char} {s : List Char} (hp : p.text.toList = c :: s)
    (hc : c ≠ '/') : p.segments.head? ≠ some "" := by
  obtain ⟨part, parts, -, hcons⟩ := splitOn_cons_of_ne hc s
  rw [segments, hp, hcons, List.map_cons, List.head?_cons, Ne, Option.some_inj]
  intro hempty
  have hnil := congrArg String.toList hempty
  rw [String.toList_ofList, String.toList_empty] at hnil
  cases hnil

theorem text_eq_of_segments (h : p.segments = [""]) : p.text = "" := by
  rcases hp : p.text.toList with _ | ⟨c, s⟩
  · exact String.toList_eq_nil_iff.1 hp
  · by_cases hc : c = '/'
    · rw [segments, hp, hc, splitOn_cons_self] at h
      exact absurd (List.map_eq_nil_iff.1 (List.cons.inj h).2) (splitOn_ne_nil _ _)
    · exact absurd (congrArg List.head? h) (head?_segments_ne_empty hp hc)

theorem front_ne_nil (h : p.text ≠ "") : p.front ≠ [] := by
  intro hnil
  rcases p.segments_eq with heq | heq
  · exact segments_ne_nil p (heq.trans hnil)
  · rw [hnil] at heq
    exact h (text_eq_of_segments heq)

theorem head?_segments (h : p.text ≠ "") : p.segments.head? = p.front.head? := by
  rcases p.segments_eq with heq | heq
  · rw [heq]
  · rw [heq, List.head?_append_of_ne_nil _ (front_ne_nil h)]

theorem text_join_ne (hq : q.isAbsolute = false) (h : p.text ≠ "") : (p.join q).text ≠ "" := by
  rw [join, hq, if_neg Bool.false_ne_true]
  split <;> simp [h]

theorem head?_join (hq : q.isAbsolute = false) (h : p.text ≠ "") :
    (p.join q).head? = p.head? := by
  rw [head?, head?, isAbsolute_join p hq, segments_join p hq,
    List.head?_append_of_ne_nil _ (front_ne_nil h), head?_segments h]

/-- Names behind a path leave its head. -/
theorem head?_foldl_child (h : p.text ≠ "") {names : List String}
    (hnames : ∀ name ∈ names, IsFileName name) :
    (names.foldl child p).head? = p.head? ∧ (names.foldl child p).text ≠ "" := by
  induction names using List.reverseRecOn with
  | nil => exact ⟨rfl, h⟩
  | append_singleton names name ih =>
    obtain ⟨hhead, htext⟩ := ih fun name hmem => hnames name (List.mem_append_left _ hmem)
    have hname := isAbsolute_of_plain (hnames name (by simp)).plain.1
    rw [List.foldl_concat]
    exact ⟨(head?_join hname htext).trans hhead, text_join_ne hname htext⟩

/-! ## Parts -/

/-- The stretches in front, without those that the head is read off. -/
def frontBody (p : Path) : List String := if p.head?.isSome then p.front.tail else p.front

theorem body_eq (h : p.text ≠ "") : p.body = p.frontBody ∨ p.body = p.frontBody ++ [""] := by
  rw [body, frontBody]
  rcases p.segments_eq with heq | heq
  · rw [heq]
    exact .inl rfl
  · right
    rw [heq, List.tail_append_of_ne_nil (front_ne_nil h)]
    split <;> rfl

theorem parts_eq (h : p.text ≠ "") :
    p.parts = p.head?.toList ++ p.frontBody.filterMap partOf? := by
  rw [parts]
  rcases body_eq h with heq | heq
  · rw [heq]
  · rw [heq, List.filterMap_append]
    simp [partOf?, isIdle]

theorem frontBody_foldl_child (h : p.text ≠ "") {names : List String}
    (hnames : ∀ name ∈ names, IsFileName name) :
    (names.foldl child p).frontBody = p.frontBody ++ names := by
  rw [frontBody, frontBody, (head?_foldl_child h hnames).1, front_foldl_child p hnames]
  split
  · rw [List.tail_append_of_ne_nil (front_ne_nil h)]
  · rfl

theorem isIdle_of_isFileName {name : String} (h : IsFileName name) : isIdle name = false := by
  simp [isIdle, h.nonempty, h.noDots.1]

theorem isAbsolute_of_head? (h : p.text ≠ "") (hhead : p.segments.head? = some "") :
    p.isAbsolute = true := by
  obtain ⟨c, s, hp⟩ := List.exists_cons_of_ne_nil (mt String.toList_eq_nil_iff.1 h)
  have hc : c = '/' := not_not.1 fun hc => head?_segments_ne_empty hp hc hhead
  rw [isAbsolute, hp, hc]
  rfl

theorem parts_ne_nil (h : p.text ≠ "") : p.parts ≠ [] := by
  rw [parts_eq h]
  rcases hhead : p.head? with _ | part
  · obtain ⟨segment, segments, hfront⟩ := List.exists_cons_of_ne_nil (front_ne_nil h)
    have hsegment : p.segments.head? = some segment := by rw [head?_segments h, hfront]; rfl
    rw [head?] at hhead
    split at hhead
    · cases hhead
    · next habsolute =>
      split at hhead
      · cases hhead
      · next hdot =>
        have hidle : isIdle segment = false := by
          rw [isIdle, Bool.or_eq_false_iff, beq_eq_false_iff_ne, beq_eq_false_iff_ne]
          rw [hsegment, Option.some_inj] at hdot
          exact ⟨fun hempty => habsolute (isAbsolute_of_head? h (hempty ▸ hsegment)), hdot⟩
        rw [frontBody, head?, if_neg habsolute, if_neg hdot, hfront]
        simp [partOf?, hidle]
        split <;> simp
  · simp

/-! ## Taking a directory off -/

theorem exists_partOf? {segment : String} (h : ¬ isIdle segment = true) :
    ∃ part, partOf? segment = some part := by
  rw [partOf?, if_neg h]
  split <;> exact ⟨_, rfl⟩

theorem dropParts_zero (body : List String) : dropParts 0 body = body := by
  cases body <;> rfl

/-- As many parts as some stretches spell are those stretches, but for idle ones at the end. -/
theorem dropWhile_dropParts (xs ys : List String) :
    (dropParts (xs.filterMap partOf?).length (xs ++ ys)).dropWhile isIdle =
      ys.dropWhile isIdle := by
  induction xs with
  | nil => rw [List.filterMap_nil, List.length_nil, dropParts_zero, List.nil_append]
  | cons x xs ih =>
    by_cases hidle : isIdle x = true
    · have hpart : partOf? x = none := by rw [partOf?, if_pos hidle]
      rw [List.filterMap_cons_none hpart, List.cons_append, ← ih]
      -- without parts to leave out, the idle stretch goes with those at the end
      rcases (xs.filterMap partOf?).length with _ | n
      · rw [dropParts_zero, dropParts_zero, List.dropWhile_cons_of_pos hidle]
      · rw [dropParts, if_pos hidle]
    · obtain ⟨part, hpart⟩ := exists_partOf? hidle
      rw [List.filterMap_cons_some hpart, List.length_cons, List.cons_append, dropParts,
        if_neg hidle, ih]

theorem dropIdleEnd_of_isFileName {names : List String} (h : ∀ name ∈ names, IsFileName name) :
    dropIdleEnd names = names := by
  induction names using List.reverseRecOn with
  | nil => rfl
  | append_singleton names name _ =>
    have hidle := isIdle_of_isFileName (h name (by simp))
    rw [dropIdleEnd, List.reverse_concat, List.dropWhile_cons_of_neg (by simp [hidle])]
    simp

theorem dropIdleEnd_concat_empty (names : List String) :
    dropIdleEnd (names ++ [""]) = dropIdleEnd names := by
  rw [dropIdleEnd, List.reverse_concat, List.dropWhile_cons_of_pos rfl]
  rfl

/-- An empty stretch behind names is all that is not a name. -/
theorem dropIdleEnd_dropWhile {names : List String} (h : ∀ name ∈ names, IsFileName name) :
    dropIdleEnd (names.dropWhile isIdle) = names ∧
      dropIdleEnd ((names ++ [""]).dropWhile isIdle) = names := by
  rcases names with _ | ⟨name, names⟩
  · exact ⟨rfl, rfl⟩
  · have hidle := isIdle_of_isFileName (h name List.mem_cons_self)
    have hself := dropIdleEnd_of_isFileName h
    rw [List.cons_append, List.dropWhile_cons_of_neg (by simp [hidle]),
      List.dropWhile_cons_of_neg (by simp [hidle]), ← List.cons_append, dropIdleEnd_concat_empty]
    exact ⟨hself, hself⟩

/-- **What is left when a directory is taken off** a path that names were put behind: the names. -/
theorem relativeTo_foldl_child (h : p.text ≠ "") {names : List String}
    (hnames : ∀ name ∈ names, IsFileName name) :
    (names.foldl child p).relativeTo p = ⟨"/".intercalate names⟩ := by
  obtain ⟨hhead, htext⟩ := head?_foldl_child h hnames
  have hparts : (names.foldl child p).parts = p.parts ++ names.filterMap partOf? := by
    rw [parts_eq htext, parts_eq h, hhead, frontBody_foldl_child h hnames, List.filterMap_append,
      List.append_assoc]
  have hstart : p.parts.isPrefixOf (names.foldl child p).parts = true := by
    rw [hparts, List.isPrefixOf_iff_prefix]
    exact List.prefix_append _ _
  have hcount : p.parts.length - (names.foldl child p).head?.toList.length =
      (p.frontBody.filterMap partOf?).length := by
    rw [parts_eq h, hhead, List.length_append, Nat.add_sub_cancel_left]
  have hrest : dropIdleEnd ((dropParts (p.frontBody.filterMap partOf?).length
      (names.foldl child p).body).dropWhile isIdle) = names := by
    obtain ⟨hnone, hempty⟩ := dropIdleEnd_dropWhile hnames
    rcases body_eq htext with heq | heq
    · rw [heq, frontBody_foldl_child h hnames, dropWhile_dropParts, hnone]
    · rw [heq, frontBody_foldl_child h hnames, List.append_assoc, dropWhile_dropParts, hempty]
  rw [relativeTo, below?, if_pos hstart, if_neg (parts_ne_nil h), Option.getD_some, hcount, hrest]
  rfl

theorem segments_intercalate_of_plain {segments : List String}
    (h : ∀ segment ∈ segments, '/' ∉ segment.toList) (hne : segments ≠ []) :
    (⟨"/".intercalate segments⟩ : Path).segments = segments := by
  induction segments with
  | nil => exact absurd rfl hne
  | cons segment segments ih =>
    have hsegment := h segment List.mem_cons_self
    rcases segments with _ | ⟨next, segments⟩
    · exact segments_of_plain hsegment
    · have hrest := ih (fun other hmem => h other (List.mem_cons_of_mem _ hmem))
        (List.cons_ne_nil _ _)
      rw [String.intercalate_cons_cons, segments_append_slash, hrest, segments_of_plain hsegment]
      rfl

theorem segments_intercalate {names : List String} (h : ∀ name ∈ names, IsFileName name)
    (hne : names ≠ []) : (⟨"/".intercalate names⟩ : Path).segments = names :=
  segments_intercalate_of_plain (fun name hname => (h name hname).plain.1) hne

theorem isAbsolute_of_segments (h : p.segments.head? ≠ some "") : p.isAbsolute = false := by
  rw [isAbsolute, decide_eq_false_iff_not]
  intro hhead
  obtain ⟨s, hs⟩ := List.head?_eq_some_iff.1 hhead
  rw [segments, hs, splitOn_cons_self] at h
  exact h rfl

/-- The names of a relative path. -/
theorem isAbsolute_intercalate {names : List String} (h : ∀ name ∈ names, IsFileName name) :
    (⟨"/".intercalate names⟩ : Path).isAbsolute = false := by
  rcases names with _ | ⟨name, names⟩
  · rfl
  · refine isAbsolute_of_segments ?_
    rw [segments_intercalate h (List.cons_ne_nil _ _), List.head?_cons, Ne, Option.some_inj]
    exact (h name List.mem_cons_self).nonempty

theorem head?_intercalate {names : List String} (h : ∀ name ∈ names, IsFileName name) :
    (⟨"/".intercalate names⟩ : Path).head? = none := by
  rcases names with _ | ⟨name, names⟩
  · rfl
  · have hdot := (h name List.mem_cons_self).noDots.1
    rw [head?, isAbsolute_intercalate h, segments_intercalate h (List.cons_ne_nil _ _)]
    simp [hdot]

theorem parent?_intercalate {names : List String} (h : ∀ name ∈ names, IsFileName name) :
    (⟨"/".intercalate names⟩ : Path).parent?.getD ⟨""⟩ = ⟨"/".intercalate names.dropLast⟩ := by
  rcases names with _ | ⟨name, names⟩
  · rfl
  · have hbody : (⟨"/".intercalate (name :: names)⟩ : Path).body = name :: names := by
      rw [body, head?_intercalate h, segments_intercalate h (List.cons_ne_nil _ _)]
      rfl
    have hdrop : dropIdleEnd (name :: names).dropLast = (name :: names).dropLast :=
      dropIdleEnd_of_isFileName fun name hmem => h name (List.dropLast_subset _ hmem)
    rw [parent?, hbody, dropIdleEnd_of_isFileName h]
    dsimp only
    rw [hdrop, head?_intercalate h]
    rfl

/-- Names behind a path lead below the place where it leads. -/
theorem place_join_intercalate (here : Location) (p : Path) {names : List String}
    (h : ∀ name ∈ names, IsFileName name) :
    (p.join ⟨"/".intercalate names⟩).place here = p.place here ++ names := by
  rw [place_join here p (isAbsolute_intercalate h)]
  rcases names with _ | ⟨name, names⟩
  · rw [List.append_nil]
    rfl
  · rw [segments_intercalate h (List.cons_ne_nil _ _), foldl_lead_of_isFileName _ h]

end Path

namespace Disk

variable {d : Disk} {p q : Path} {l : Location}

theorem text_ne_of_locate? (h : d.locate? p = some l) : p.text ≠ "" := by
  intro hnil
  rw [locate?, if_pos hnil] at h
  cases h

/-- A relative path can be followed from where the path in front of it leads. -/
theorem locate?_join (hl : d.locate? p = some l) (hq : q.isAbsolute = false) :
    d.locate? (p.join q) = q.segments.foldlM (follow? d.tree) l := by
  have htext := text_ne_of_locate? hl
  have hstart : d.start (p.join q) = d.start p := by rw [start, start, Path.isAbsolute_join p hq]
  have hfront : p.front.foldlM (follow? d.tree) (d.start p) = some l := by
    rw [locate?, if_neg htext] at hl
    rcases p.segments_eq with heq | heq
    · rwa [← heq]
    · rw [heq, List.foldlM_append, Option.bind_eq_bind, Option.bind_eq_some_iff] at hl
      obtain ⟨l', hl', hl⟩ := hl
      have hempty := foldlM_follow? hl
      rw [hl', hempty]
      rfl
  rw [locate?, if_neg (Path.text_join_ne hq htext), Path.segments_join p hq, List.foldlM_append,
    hstart, hfront]
  rfl

theorem locate?_child {name : String} (hl : d.locate? p = some l)
    (hdir : d.tree.isDirectory l = true) (hname : IsFileName name) :
    d.locate? (p.child name) = some (l ++ [name]) := by
  have hidle := Path.isIdle_of_isFileName hname
  rw [Path.child, locate?_join hl (Path.isAbsolute_of_plain hname.plain.1),
    Path.segments_of_plain hname.plain.1, List.foldlM_cons]
  simp [follow?, hdir, hidle, hname, hname.noDots.2]

end Disk

end StaticSite
