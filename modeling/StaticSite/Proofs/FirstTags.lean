import Mathlib.Data.List.Induction
import Mathlib.Data.List.TakeWhile
import Mathlib.Data.Nat.Find
import StaticSite.Markup.TagName
import StaticSite.Proofs.OpeningTags

/-!
# Every name of a tag once

The names of a markup text are what its tags are named, a tag being a `<` with name characters directly
behind it, as many as there are (`TagAt`). Each is listed once, by its first tag, in the order of these
(`pairwise_tagNames`).

No tag begins among the name characters of another one. So a search that goes on behind each name it has
found misses none (`tagMatches_eq_tagRuns`). And when a text is put behind another one, no tag is lost
or renamed unless the first ends within a name that the second goes on with (`tagRuns_append`).
-/

namespace StaticSite

namespace Text

variable {α : Type} [DecidableEq α]

/-- What is put at the end of a list are the first occurrences of what it does not have. -/
theorem extendNew_eq_filter (xs ys : List α) :
    extendNew xs ys = xs ++ (distinct ys).filter (· ∉ xs) := by
  induction ys using List.reverseRecOn with
  | nil => simp [extendNew, distinct]
  | append_singleton ys y ih =>
    have hstep : ∀ zs : List α, extendNew zs [y] = pushNew zs y := fun _ => rfl
    rw [extendNew_append, distinct_append, ih, hstep, hstep, pushNew, pushNew]
    by_cases hxs : y ∈ xs <;> by_cases hys : y ∈ distinct ys <;> simp [hxs, hys]

theorem distinct_cons (x : α) (xs : List α) :
    distinct (x :: xs) = x :: (distinct xs).filter (· ≠ x) := by
  have hstep : distinct (x :: xs) = extendNew [x] xs := rfl
  rw [hstep, extendNew_eq_filter, List.singleton_append]
  simp only [List.mem_singleton, ne_eq]

end Text

namespace Markup

open Text

/-! ## Tags in a text -/

/-- A tag with a name at a position: a `<`, the name, and no name character behind it. -/
def TagAt (s : List Char) (i : Nat) (name : String) : Prop :=
  ∃ rest, s.drop i = '<' :: (name.toList ++ rest) ∧ name ≠ "" ∧
    (∀ c ∈ name.toList, isNameChar c = true) ∧ ∀ c ∈ rest.head?, isNameChar c = false

/-- The first tag with a name. -/
def FirstTagAt (s : List Char) (i : Nat) (name : String) : Prop :=
  TagAt s i name ∧ ∀ j, TagAt s j name → i ≤ j

variable {s a b : List Char} {c : Char} {i : Nat} {x y name : String}

theorem not_tagAt_nil : ¬TagAt [] i name := by
  rintro ⟨rest, heq, -⟩
  rw [List.drop_nil] at heq
  cases heq

/-- The name of a tag is the run of name characters behind its `<`. -/
theorem tagAt_cons_zero : TagAt (c :: s) 0 name ↔
    c = '<' ∧ name ≠ "" ∧ s.takeWhile isNameChar = name.toList := by
  constructor
  · rintro ⟨rest, heq, hne, hname, hrest⟩
    obtain ⟨rfl, rfl⟩ := List.cons.inj heq
    exact ⟨rfl, hne, takeWhile_append_of_head hname hrest⟩
  · rintro ⟨rfl, hne, hrun⟩
    refine ⟨s.dropWhile isNameChar, ?_, hne, fun c hc => ?_, fun c hc => ?_⟩
    · rw [← hrun, List.takeWhile_append_dropWhile, List.drop_zero]
    · exact List.mem_takeWhile_imp (hrun ▸ hc)
    · have hnot := List.head?_dropWhile_not isNameChar s
      rw [Option.mem_def.1 hc] at hnot
      exact hnot

theorem tagAt_cons_succ : TagAt (c :: s) (i + 1) name ↔ TagAt s i name := Iff.rfl

theorem TagAt.unique (hx : TagAt (c :: s) 0 x) (hy : TagAt (c :: s) 0 y) : x = y :=
  String.toList_inj.1 ((tagAt_cons_zero.1 hx).2.2.symm.trans (tagAt_cons_zero.1 hy).2.2)

theorem TagAt.exists_first (h : TagAt s i name) : ∃ k, FirstTagAt s k name := by
  classical
  have hex : ∃ k, TagAt s k name := ⟨i, h⟩
  exact ⟨Nat.find hex, Nat.find_spec hex, fun j hj => Nat.find_min' hex hj⟩

theorem FirstTagAt.of_cons (h : FirstTagAt (c :: s) i name) (h0 : ¬TagAt (c :: s) 0 name) :
    ∃ k, i = k + 1 ∧ FirstTagAt s k name := by
  cases i with
  | zero => exact absurd h.1 h0
  | succ k => exact ⟨k, rfl, h.1, fun j hj => Nat.le_of_succ_le_succ (h.2 (j + 1) hj)⟩

/-! ## The names in order -/

/-- A text has its first tag at its first character, or the same tags as what is behind that. -/
theorem tagRuns_cons (c : Char) (s : List Char) :
    (∃ name, TagAt (c :: s) 0 name ∧ tagRuns (c :: s) = name.toList :: tagRuns s) ∨
      (∀ name, ¬TagAt (c :: s) 0 name) ∧ tagRuns (c :: s) = tagRuns s := by
  rw [tagRuns]
  split
  · next hc =>
    split
    · next hrun =>
      refine .inr ⟨fun name h => ?_, rfl⟩
      obtain ⟨-, hne, hname⟩ := tagAt_cons_zero.1 h
      exact hne (String.toList_inj.1 (hname.symm.trans hrun))
    · next hrun =>
      refine .inl ⟨String.ofList (s.takeWhile isNameChar), tagAt_cons_zero.2 ⟨hc, ?_, ?_⟩, ?_⟩
      · exact fun hempty => hrun (String.ofList_eq_empty_iff.1 hempty)
      · rw [String.toList_ofList]
      · rw [String.toList_ofList]
  · next hc => exact .inr ⟨fun name h => hc (tagAt_cons_zero.1 h).1, rfl⟩

theorem mem_tagRuns : name.toList ∈ tagRuns s ↔ ∃ i, TagAt s i name := by
  induction s with
  | nil => simp [tagRuns, not_tagAt_nil]
  | cons c s ih =>
    rw [← Nat.or_exists_add_one]
    simp only [tagAt_cons_succ, ← ih]
    obtain ⟨first, hfirst, hruns⟩ | ⟨hnone, hruns⟩ := tagRuns_cons c s
    · rw [hruns, List.mem_cons, String.toList_inj]
      exact or_congr_left ⟨fun h => h ▸ hfirst, fun h => h.unique hfirst⟩
    · rw [hruns, or_iff_right (hnone name)]

theorem mem_map_tagRuns : name ∈ (tagRuns s).map String.ofList ↔ ∃ i, TagAt s i name := by
  rw [← mem_tagRuns, List.mem_map]
  constructor
  · rintro ⟨run, hrun, rfl⟩
    rwa [String.toList_ofList]
  · exact fun h => ⟨name.toList, h, String.ofList_toList⟩

theorem firstTagAt_lt (s : List Char) : (distinct ((tagRuns s).map String.ofList)).Pairwise
    fun x y => ∀ i j, FirstTagAt s i x → FirstTagAt s j y → i < j := by
  induction s with
  | nil => exact List.Pairwise.nil
  | cons c s ih =>
    -- A tag that is not at the first character is one of the tags behind it.
    have hstep : ∀ {x y}, ¬TagAt (c :: s) 0 x → ¬TagAt (c :: s) 0 y →
        (∀ i j, FirstTagAt s i x → FirstTagAt s j y → i < j) →
        ∀ i j, FirstTagAt (c :: s) i x → FirstTagAt (c :: s) j y → i < j := by
      intro x y hx hy hlt i j hi hj
      obtain ⟨i, rfl, hi'⟩ := hi.of_cons hx
      obtain ⟨j, rfl, hj'⟩ := hj.of_cons hy
      exact Nat.succ_lt_succ (hlt i j hi' hj')
    obtain ⟨first, hfirst, hruns⟩ | ⟨hnone, hruns⟩ := tagRuns_cons c s
    · have hother : ∀ {y}, y ≠ first → ¬TagAt (c :: s) 0 y := fun hne h => hne (h.unique hfirst)
      rw [hruns, List.map_cons, String.ofList_toList, distinct_cons, List.pairwise_cons]
      constructor
      · intro y hy i j hi hj
        have hne : y ≠ first := of_decide_eq_true (List.mem_filter.1 hy).2
        obtain ⟨j, rfl, -⟩ := hj.of_cons (hother hne)
        exact Nat.lt_succ_of_le (Nat.le_trans (hi.2 0 hfirst) j.zero_le)
      · refine (ih.filter _).imp_of_mem fun hx hy hlt => ?_
        exact hstep (hother (of_decide_eq_true (List.mem_filter.1 hx).2))
          (hother (of_decide_eq_true (List.mem_filter.1 hy).2)) hlt
    · rw [hruns]
      exact ih.imp fun hlt => hstep (hnone _) (hnone _) hlt

theorem pairwise_tagNames (markup : String) : (tagNames markup).Pairwise fun x y =>
    ∃ i j, FirstTagAt markup.toList i x ∧ FirstTagAt markup.toList j y ∧ i < j := by
  refine (firstTagAt_lt markup.toList).imp_of_mem fun {x y} hx hy hlt => ?_
  obtain ⟨_, hx⟩ := mem_map_tagRuns.1 (mem_distinct.1 hx)
  obtain ⟨_, hy⟩ := mem_map_tagRuns.1 (mem_distinct.1 hy)
  obtain ⟨i, hi⟩ := hx.exists_first
  obtain ⟨j, hj⟩ := hy.exists_first
  exact ⟨i, j, hi, hj, hlt i j hi hj⟩

/-! ## A search without overlaps -/

/-- The names that a search from left to right finds which goes on behind each of them. -/
def tagMatches : List Char → List (List Char)
  | [] => []
  | c :: s =>
    if c = '<' then
      match s.takeWhile isNameChar with
      | [] => tagMatches s
      | run => run :: tagMatches (s.dropWhile isNameChar)
    else tagMatches s
termination_by s => s.length
decreasing_by
  · exact Nat.lt_succ_self _
  · exact Nat.lt_succ_of_le (List.dropWhile_suffix isNameChar).length_le
  · exact Nat.lt_succ_self _

/-- No tag begins among name characters. -/
theorem tagRuns_dropWhile (s : List Char) : tagRuns (s.dropWhile isNameChar) = tagRuns s := by
  induction s with
  | nil => rfl
  | cons c s ih =>
    rw [List.dropWhile_cons]
    split
    · next hc =>
      have hne : c ≠ '<' := by rintro rfl; cases hc
      rw [ih, tagRuns, if_neg hne]
    · rfl

theorem tagMatches_eq_tagRuns (s : List Char) : tagMatches s = tagRuns s := by
  fun_induction tagMatches s with
  | case1 => rfl
  | case2 s hrun ih => rw [tagRuns, if_pos rfl, hrun, ih]
  | case3 s hrun ih =>
    rw [ih, tagRuns_dropWhile, tagRuns, if_pos rfl]
    split
    · next hempty => exact (hrun hempty).elim
    · rfl
  | case4 c s hc ih => rw [tagRuns, if_neg hc, ih]

/-! ## One text behind another -/

/-- The text ends within a tag: with a `<` and name characters, or none of them, behind it. -/
def OpenAtEnd (s : List Char) : Prop :=
  ∃ run, (∀ c ∈ run, isNameChar c = true) ∧ '<' :: run <:+ s

/-- Behind a `<` the same name stands when more text follows, unless the name is still open. -/
theorem takeWhile_isNameChar_append
    (h : ¬OpenAtEnd ('<' :: a) ∨ ∀ c ∈ b.head?, isNameChar c = false) :
    (a ++ b).takeWhile isNameChar = a.takeWhile isNameChar := by
  by_cases hall : ∀ c ∈ a, isNameChar c = true
  · have hopen : OpenAtEnd ('<' :: a) := ⟨a, hall, List.suffix_refl _⟩
    have hhead := h.resolve_left (not_not_intro hopen)
    rw [takeWhile_append_of_head hall hhead, List.takeWhile_eq_self_iff.2 hall]
  · have hlt : (a.takeWhile isNameChar).length ≠ a.length := fun hlen => by
      have hrun := (List.takeWhile_prefix isNameChar).eq_of_length hlen
      exact hall fun c hc => List.mem_takeWhile_imp (hrun.symm ▸ hc)
    rw [List.takeWhile_append, if_neg hlt]

theorem tagRuns_append (h : ¬OpenAtEnd a ∨ ∀ c ∈ b.head?, isNameChar c = false) :
    tagRuns (a ++ b) = tagRuns a ++ tagRuns b := by
  induction a with
  | nil => rfl
  | cons c a ih =>
    have htail : ¬OpenAtEnd a ∨ ∀ c ∈ b.head?, isNameChar c = false :=
      h.imp_left fun hnot ⟨run, hrun, hsuffix⟩ =>
        hnot ⟨run, hrun, hsuffix.trans (List.suffix_cons c a)⟩
    rw [List.cons_append, tagRuns, tagRuns, ih htail]
    split
    · next hc =>
      subst hc
      rw [takeWhile_isNameChar_append h]
      split <;> rfl
    · rfl

/-- **Every tag is found once.** The names of a text, which a search without overlaps finds, are
listed without repeats; they are those of its tags, in the order of the first tag of each. And the
names of a text behind another one are those of the first, and then the others of the second, unless
the first ends within a tag and the second begins with a name character. -/
theorem tagNames_each_once (markup front back : String) :
    tagNames markup = distinct ((tagMatches markup.toList).map String.ofList) ∧
      (tagNames markup).Nodup ∧
      (∀ name, name ∈ tagNames markup ↔ ∃ i, TagAt markup.toList i name) ∧
      ((tagNames markup).Pairwise fun x y =>
        ∃ i j, FirstTagAt markup.toList i x ∧ FirstTagAt markup.toList j y ∧ i < j) ∧
      (¬OpenAtEnd front.toList ∨ (∀ c ∈ back.toList.head?, isNameChar c = false) →
        tagNames (front ++ back) =
          tagNames front ++ (tagNames back).filter (· ∉ tagNames front)) := by
  refine ⟨?_, nodup_distinct _, fun name => ?_, pairwise_tagNames markup, fun h => ?_⟩
  · rw [tagMatches_eq_tagRuns, tagNames]
  · rw [tagNames, mem_distinct, mem_map_tagRuns]
  · rw [tagNames, String.toList_append, tagRuns_append h, List.map_append, distinct_append,
      extendNew_eq_filter]
    rfl

theorem tagNames_each_once_nav :
    (∀ c ∈ "/><p/><nav/>".toList.head?, isNameChar c = false) ∧
      tagNames ("<nav><Nav" ++ "/><p/><nav/>") = ["nav", "Nav", "p"] := by
  have hback : ∀ c ∈ "/><p/><nav/>".toList.head?, isNameChar c = false := by
    rintro c ⟨⟩
    rfl
  refine ⟨hback, ?_⟩
  rw [(tagNames_each_once "" "<nav><Nav" "/><p/><nav/>").2.2.2.2 (.inr hback)]
  decide

end Markup

end StaticSite
