/-!
# Spans of text

Readers in this library walk a text as a list of characters and hand on what is left. This module
holds the vocabulary they share:

* `byteLength` measures a text in UTF-8 bytes, the unit in which every offset is counted;
* `cut?` splits a text around the first occurrence of another one;
* `startsWith?` takes a given beginning off a text;
* `splitOn` takes a text apart at a character.

`cut?_eq_some` says that nothing is lost by a cut, and `byteLength_append` that offsets add up.
-/

namespace StaticSite.Text

/-- The length of a text in UTF-8 bytes. -/
def byteLength : List Char → Nat
  | [] => 0
  | c :: s => c.utf8Size + byteLength s

@[simp] theorem byteLength_nil : byteLength [] = 0 := rfl

@[simp] theorem byteLength_cons (c : Char) (s : List Char) :
    byteLength (c :: s) = c.utf8Size + byteLength s := rfl

@[simp] theorem byteLength_append (s t : List Char) :
    byteLength (s ++ t) = byteLength s + byteLength t := by
  induction s with
  | nil => simp
  | cons c s ih => simp [ih, Nat.add_assoc]

/-- What is left of a text behind its first `n` bytes; `none` inside a character or past the end. -/
def dropBytes? : Nat → List Char → Option (List Char)
  | 0, s => some s
  | _ + 1, [] => none
  | n + 1, c :: s => if c.utf8Size ≤ n + 1 then dropBytes? (n + 1 - c.utf8Size) s else none
termination_by _ s => s.length

/-- The longest run of whole characters that fits into `n` bytes. -/
def takeBytes : Nat → List Char → List Char
  | _, [] => []
  | n, c :: s => if c.utf8Size ≤ n then c :: takeBytes (n - c.utf8Size) s else []

/-- The text behind `start`, when the text starts with it. -/
def startsWith? : List Char → List Char → Option (List Char)
  | [], s => some s
  | _ :: _, [] => none
  | p :: ps, c :: s => if p = c then startsWith? ps s else none

theorem startsWith?_eq_some {start s rest : List Char} :
    startsWith? start s = some rest ↔ s = start ++ rest := by
  induction start generalizing s with
  | nil => simp [startsWith?]
  | cons p ps ih =>
    cases s with
    | nil => simp [startsWith?]
    | cons c s =>
      by_cases h : p = c
      · subst h; simp [startsWith?, ih]
      · simp [startsWith?, h, Ne.symm h]

/-- The text before the first occurrence of `mark` and the text behind it. -/
def cut? (mark : List Char) : List Char → Option (List Char × List Char)
  | [] => if mark = [] then some ([], []) else none
  | c :: s =>
    match startsWith? mark (c :: s) with
    | some rest => some ([], rest)
    | none => (cut? mark s).map fun (before, rest) => (c :: before, rest)

theorem cut?_eq_some {mark s before rest : List Char} (h : cut? mark s = some (before, rest)) :
    s = before ++ mark ++ rest := by
  induction s generalizing before with
  | nil =>
    rw [cut?] at h
    split at h
    · simp_all
    · simp at h
  | cons c s ih =>
    rw [cut?] at h
    split at h
    · next r hr =>
      obtain ⟨rfl, rfl⟩ : [] = before ∧ r = rest := by simpa using h
      simpa using startsWith?_eq_some.1 hr
    · simp only [Option.map_eq_some_iff, Prod.exists, Prod.mk.injEq] at h
      obtain ⟨b, r, hb, rfl, rfl⟩ := h
      simp [ih hb]

theorem length_of_cut? {mark s before rest : List Char} (h : cut? mark s = some (before, rest)) :
    s.length = before.length + mark.length + rest.length := by
  rw [cut?_eq_some h]; simp [Nat.add_assoc]

/-- A text that is cut keeps its end. -/
theorem suffix_of_cut? {mark s before rest : List Char} (h : cut? mark s = some (before, rest)) :
    rest <:+ s := by
  rw [cut?_eq_some h]
  exact List.suffix_append _ _

theorem cut?_of_startsWith? {mark s rest : List Char} (h : startsWith? mark s = some rest) :
    cut? mark s = some ([], rest) := by
  cases s with
  | nil =>
    obtain ⟨rfl, rfl⟩ : mark = [] ∧ rest = [] := by simpa using startsWith?_eq_some.1 h
    rfl
  | cons c s => rw [cut?, h]

/-- What stands behind the mark has no part in where a text is cut. -/
theorem cut?_append {mark s before rest : List Char} (h : cut? mark s = some (before, rest))
    (t : List Char) : cut? mark (before ++ mark ++ t) = some (before, t) := by
  induction s generalizing before with
  | nil =>
    obtain ⟨rfl, rfl, rfl⟩ : before = [] ∧ mark = [] ∧ rest = [] := by
      simpa using (cut?_eq_some h).symm
    exact cut?_of_startsWith? rfl
  | cons c s ih =>
    have hsplit := cut?_eq_some h
    rw [cut?] at h
    split at h
    · cases h
      exact cut?_of_startsWith? (startsWith?_eq_some.2 rfl)
    · next hnone =>
      obtain ⟨⟨b, r⟩, hcut, heq⟩ := Option.map_eq_some_iff.1 h
      cases heq
      -- if the mark stood earlier now, it would have stood there before
      have hstart : startsWith? mark (c :: b ++ mark ++ t) = none := by
        rcases hsome : startsWith? mark (c :: b ++ mark ++ t) with _ | r'
        · rfl
        · have hlength : mark.length ≤ (c :: b ++ mark).length := by
            rw [List.length_append]
            exact Nat.le_add_left _ _
          obtain ⟨u, hu⟩ : mark <+: c :: b ++ mark := List.prefix_of_prefix_length_le
            ⟨r', (startsWith?_eq_some.1 hsome).symm⟩ (List.prefix_append _ _) hlength
          rw [hsplit, startsWith?_eq_some.2 (by rw [← hu, List.append_assoc])] at hnone
          cases hnone
      rw [List.cons_append, List.cons_append] at hstart ⊢
      rw [cut?, hstart, ih hcut]
      rfl

/-- A text is cut around a mark whose first character does not occur before. -/
theorem cut?_of_notMem {m : Char} {before : List Char} (h : m ∉ before) (ms rest : List Char) :
    cut? (m :: ms) (before ++ m :: (ms ++ rest)) = some (before, rest) := by
  induction before with
  | nil => exact cut?_of_startsWith? (startsWith?_eq_some.2 rfl)
  | cons c before ih =>
    rw [List.mem_cons, not_or] at h
    rw [List.cons_append, cut?, startsWith?, if_neg h.1, ih h.2]
    rfl

/-- A text is not cut around a mark whose first character does not occur. -/
theorem cut?_eq_none {m : Char} {s : List Char} (h : m ∉ s) (ms : List Char) :
    cut? (m :: ms) s = none := by
  induction s with
  | nil => rfl
  | cons c s ih =>
    rw [List.mem_cons, not_or] at h
    rw [cut?, startsWith?, if_neg h.1, ih h.2]
    rfl

/-- A text in which the mark occurs is cut. -/
theorem exists_cut?_of_infix {mark s : List Char} (h : mark <:+: s) :
    ∃ before rest, cut? mark s = some (before, rest) := by
  induction s with
  | nil =>
    obtain rfl := List.infix_nil.1 h
    exact ⟨[], [], rfl⟩
  | cons c s ih =>
    rcases hstart : startsWith? mark (c :: s) with _ | rest
    · rcases List.infix_cons_iff.1 h with ⟨rest, hrest⟩ | hlater
      · rw [← hrest, startsWith?_eq_some.2 rfl] at hstart
        cases hstart
      · obtain ⟨before, rest, hcut⟩ := ih hlater
        exact ⟨c :: before, rest, by rw [cut?, hstart, hcut]; rfl⟩
    · exact ⟨[], rest, cut?_of_startsWith? hstart⟩

/-- A text that ends in its first mark is cut at its end. -/
theorem cut?_of_suffix {mark s : List Char} (hend : mark <:+ s) (hfirst : ¬mark <:+: s.dropLast) :
    ∃ before, cut? mark s = some (before, []) := by
  obtain ⟨before, rest, hcut⟩ := exists_cut?_of_infix hend.isInfix
  rcases List.eq_nil_or_concat rest with rfl | ⟨rest, c, rfl⟩
  · exact ⟨before, hcut⟩
  · rw [cut?_eq_some hcut, List.concat_eq_append, ← List.append_assoc, List.dropLast_concat] at hfirst
    exact absurd ⟨before, rest, rfl⟩ hfirst

/-- Every occurrence of `mark`, from the left and without overlap, replaced by `replacement`. An empty
`mark` occurs nowhere. -/
def replaceAll (mark replacement : List Char) (s : List Char) : List Char :=
  if hm : mark = [] then s else
  match h : cut? mark s with
  | none => s
  | some (before, rest) =>
    have : rest.length < s.length := by
      have := length_of_cut? h
      have := List.length_pos_iff.2 hm
      omega
    before ++ replacement ++ replaceAll mark replacement rest
termination_by s.length

/-- The parts of a text between the occurrences of a character. -/
def splitOn (mark : Char) : List Char → List (List Char)
  | [] => [[]]
  | c :: s =>
    if c = mark then [] :: splitOn mark s
    else match splitOn mark s with
      | [] => [[c]]
      | part :: parts => (c :: part) :: parts

theorem splitOn_ne_nil (mark : Char) (s : List Char) : splitOn mark s ≠ [] := by
  cases s with
  | nil => simp [splitOn]
  | cons c s =>
    rw [splitOn]
    split
    · simp
    · split <;> simp

theorem splitOn_cons_of_ne {mark c : Char} (hc : c ≠ mark) (s : List Char) :
    ∃ part parts, splitOn mark s = part :: parts ∧
      splitOn mark (c :: s) = (c :: part) :: parts := by
  obtain ⟨part, parts, hs⟩ := List.exists_cons_of_ne_nil (splitOn_ne_nil mark s)
  exact ⟨part, parts, hs, by rw [splitOn, if_neg hc, hs]⟩

theorem splitOn_cons_self (mark : Char) (s : List Char) :
    splitOn mark (mark :: s) = [] :: splitOn mark s := by
  rw [splitOn, if_pos rfl]

theorem splitOn_append_cons (mark : Char) (s t : List Char) :
    splitOn mark (s ++ mark :: t) = splitOn mark s ++ splitOn mark t := by
  induction s with
  | nil => exact splitOn_cons_self mark t
  | cons c s ih =>
    by_cases hc : c = mark
    · subst hc
      rw [List.cons_append, splitOn_cons_self, splitOn_cons_self, ih, List.cons_append]
    · obtain ⟨part, parts, hs, hcons⟩ := splitOn_cons_of_ne hc s
      rw [hcons, List.cons_append, splitOn, if_neg hc, ih, hs]
      rfl

theorem splitOn_of_notMem {mark : Char} {s : List Char} (h : mark ∉ s) :
    splitOn mark s = [s] := by
  induction s with
  | nil => rfl
  | cons c s ih =>
    rw [List.mem_cons, not_or] at h
    rw [splitOn, if_neg (Ne.symm h.1), ih h.2]

/-- Nothing that a text is split into has the mark. -/
theorem notMem_of_mem_splitOn {mark : Char} {s part : List Char} (h : part ∈ splitOn mark s) :
    mark ∉ part := by
  induction s generalizing part with
  | nil =>
    rw [splitOn, List.mem_singleton] at h
    rw [h]
    exact List.not_mem_nil
  | cons c s ih =>
    by_cases hc : c = mark
    · subst hc
      rw [splitOn_cons_self] at h
      rcases List.mem_cons.1 h with rfl | h
      · exact List.not_mem_nil
      · exact ih h
    · obtain ⟨first, parts, hs, hcons⟩ := splitOn_cons_of_ne hc s
      rw [hcons] at h
      rcases List.mem_cons.1 h with rfl | h
      · rw [List.mem_cons, not_or]
        exact ⟨Ne.symm hc, ih (hs ▸ List.mem_cons_self)⟩
      · exact ih (hs ▸ List.mem_cons_of_mem _ h)

/-- A text is split into its own characters. -/
theorem mem_of_mem_splitOn {mark c : Char} {s part : List Char} (h : part ∈ splitOn mark s)
    (hc : c ∈ part) : c ∈ s := by
  induction s generalizing part with
  | nil =>
    rw [splitOn, List.mem_singleton] at h
    rwa [h] at hc
  | cons first s ih =>
    by_cases hfirst : first = mark
    · subst hfirst
      rw [splitOn_cons_self] at h
      rcases List.mem_cons.1 h with rfl | h
      · exact absurd hc List.not_mem_nil
      · exact List.mem_cons_of_mem _ (ih h hc)
    · obtain ⟨head, parts, hs, hcons⟩ := splitOn_cons_of_ne hfirst s
      rw [hcons] at h
      rcases List.mem_cons.1 h with rfl | h
      · rcases List.mem_cons.1 hc with rfl | hc
        · exact List.mem_cons_self
        · exact List.mem_cons_of_mem _ (ih (hs ▸ List.mem_cons_self) hc)
      · exact List.mem_cons_of_mem _ (ih (hs ▸ List.mem_cons_of_mem _ h) hc)

/-- Only a text that ends in the mark, or has nothing, has an empty part at its end. -/
theorem getLast?_splitOn {mark : Char} {s : List Char} (h : (splitOn mark s).getLast? = some []) :
    s = [] ∨ s.getLast? = some mark := by
  induction s with
  | nil => exact .inl rfl
  | cons c s ih =>
    right
    by_cases hc : c = mark
    · subst hc
      rw [splitOn_cons_self, List.getLast?_cons_of_ne_nil (splitOn_ne_nil _ _)] at h
      rcases ih h with rfl | hlast
      · rfl
      · rw [List.getLast?_cons, hlast, Option.getD_some]
    · obtain ⟨part, parts, hs, hcons⟩ := splitOn_cons_of_ne hc s
      rw [hcons] at h
      rcases parts with _ | ⟨next, parts⟩
      · simp at h
      · rw [List.getLast?_cons_cons] at h
        rw [hs, List.getLast?_cons_cons] at ih
        rcases ih h with rfl | hlast
        · simp [splitOn] at hs
        · rw [List.getLast?_cons, hlast, Option.getD_some]

/-- ASCII letters in lower case, all else unchanged. -/
def lower (s : List Char) : List Char := s.map Char.toLower

end StaticSite.Text
