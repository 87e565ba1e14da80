import Mathlib.Data.List.DropRight
import Mathlib.Data.List.TakeWhile
import StaticSite.Proofs.Unread

/-!
# Gaps

Between the tokens of a literal there may be gaps: white space and comments, as far as they go. A
stretch is `Skipped` if `skipTrivia` gets to its end; a `Gap` is the longest such stretch that a text
starts with. `gap_iff` says that this is where `skipTrivia` goes on or, at a comment without an end,
stops. As no token starts with a slash, a gap in front of a token is one that `skipTrivia` gets over
(`skipTrivia_of_gap`).
-/

namespace StaticSite.Literal

open Text

variable {s t w : List Char}

/-- White space and comments, and nothing else. -/
def Skipped (w : List Char) : Prop := skipTrivia w = .ok []

/-- What stands behind the longest stretch of white space and comments at the start of a text. -/
def Gap (s t : List Char) : Prop :=
  ∃ w, s = w ++ t ∧ Skipped w ∧ ∀ p, p <+: s → Skipped p → p <+: w

/-- Where `skipTrivia` goes on or stops. -/
def behindGap (s : List Char) : List Char :=
  match skipTrivia s with
  | .ok t => t
  | .error stop => stop.rest

/-! ## Steps of `skipTrivia` -/

/-- One step, by what stands behind the blanks. -/
theorem skipTrivia_eq (s : List Char) : skipTrivia s =
    match trimStart s with
    | '/' :: '/' :: t => skipTrivia (t.dropWhile (· ≠ '\n'))
    | '/' :: '*' :: t =>
      match cut? ['*', '/'] ('*' :: t) with
      | some (_, rest) => skipTrivia rest
      | none => .error ⟨.unterminatedComment, '/' :: '*' :: t⟩
    | t => .ok t := by
  rw [skipTrivia]
  split
  · next h => simp only [h]
  · next h =>
    simp only [h]
    split
    · next hcut => simp only [hcut]
    · next hcut => simp only [hcut]
  · next hline hblock =>
    split
    · next h => exact absurd h (hline _)
    · next h => exact absurd h (hblock _)
    · rfl

theorem skipTrivia_of_line (h : trimStart s = '/' :: '/' :: t) :
    skipTrivia s = skipTrivia (t.dropWhile (· ≠ '\n')) := by
  rw [skipTrivia_eq, h]
  rfl

theorem skipTrivia_of_block {before rest : List Char} (h : trimStart s = '/' :: '*' :: t)
    (hcut : cut? ['*', '/'] ('*' :: t) = some (before, rest)) :
    skipTrivia s = skipTrivia rest := by
  rw [skipTrivia_eq, h]
  simp only [hcut]

theorem skipTrivia_of_open (h : trimStart s = '/' :: '*' :: t)
    (hcut : cut? ['*', '/'] ('*' :: t) = none) :
    skipTrivia s = .error ⟨.unterminatedComment, '/' :: '*' :: t⟩ := by
  rw [skipTrivia_eq, h]
  simp only [hcut]

theorem skipTrivia_of_end (hline : ∀ t, trimStart s ≠ '/' :: '/' :: t)
    (hblock : ∀ t, trimStart s ≠ '/' :: '*' :: t) : skipTrivia s = .ok (trimStart s) := by
  rw [skipTrivia_eq]
  split
  · next h => exact absurd h (hline _)
  · next h => exact absurd h (hblock _)
  · rfl

/-- Blanks in front make no difference. -/
theorem skipTrivia_congr (h : trimStart s = trimStart t) : skipTrivia s = skipTrivia t := by
  rw [skipTrivia_eq, skipTrivia_eq t, h]

/-- Blanks in front make no difference. -/
theorem skipTrivia_blanks {blank : List Char} (hblank : ∀ c ∈ blank, isBlank c = true)
    (s : List Char) : skipTrivia (blank ++ s) = skipTrivia s := by
  refine skipTrivia_congr ?_
  rw [trimStart, List.dropWhile_append_of_pos hblank, trimStart]

/-- Where `skipTrivia` has gone on, it goes on at once. -/
theorem skipTrivia_self (h : skipTrivia s = .ok t) : skipTrivia t = .ok t := by
  fun_induction skipTrivia s with
  | case1 s u hs ih => exact ih h
  | case2 s u hs before rest hcut ih => exact ih h
  | case3 => cases h
  | case4 s hline hblock =>
    cases h
    have hsame : trimStart (trimStart s) = trimStart s := List.dropWhile_idempotent _ _
    rw [skipTrivia_congr hsame, skipTrivia_of_end hline hblock]

/-! ## Stretches that are skipped -/

namespace Skipped

theorem nil : Skipped [] := by
  rw [Skipped, skipTrivia_eq]
  rfl

theorem blanks {blank : List Char} (hblank : ∀ c ∈ blank, isBlank c = true) (hw : Skipped w) :
    Skipped (blank ++ w) := by
  rwa [Skipped, skipTrivia_blanks hblank]

/-- A line comment up to the end of the text or to a line feed. -/
theorem line {line : List Char} (hline : ∀ c ∈ line, c ≠ '\n')
    (hend : w.dropWhile (· ≠ '\n') = w) (hw : Skipped w) : Skipped ('/' :: '/' :: (line ++ w)) := by
  have hdrop : (line ++ w).dropWhile (· ≠ '\n') = w := by
    rw [List.dropWhile_append_of_pos (by simpa using hline), hend]
  rwa [Skipped, skipTrivia_of_line rfl, hdrop]

theorem block {before u : List Char} (hcut : cut? ['*', '/'] ('*' :: u) = some (before, w))
    (hw : Skipped w) : Skipped ('/' :: '*' :: u) := by
  rwa [Skipped, skipTrivia_of_block rfl hcut]

end Skipped

/-- What begins a text that starts with a line feed starts with it too. -/
theorem dropWhile_of_prefix (h : w <+: t.dropWhile (· ≠ '\n')) : w.dropWhile (· ≠ '\n') = w := by
  rcases w with _ | ⟨c, w⟩
  · rfl
  · obtain ⟨v, hv⟩ := h
    have hc := List.head?_dropWhile_not (· ≠ '\n') t
    rw [← hv] at hc
    rw [List.dropWhile_cons_of_neg]
    simpa using hc

/-- Blanks in front belong to a gap. -/
theorem exists_skipped_of_trimStart (hs : trimStart s = w ++ t) (hw : Skipped w) :
    ∃ w', s = w' ++ t ∧ Skipped w' := by
  refine ⟨s.takeWhile isBlank ++ w, ?_, hw.blanks fun c hc => List.mem_takeWhile_imp hc⟩
  rw [List.append_assoc, ← hs]
  exact List.takeWhile_append_dropWhile.symm

/-- A text is a stretch that is skipped and what stands behind the gap. -/
theorem exists_skipped (s : List Char) : ∃ w, s = w ++ behindGap s ∧ Skipped w := by
  fun_induction skipTrivia s with
  | case1 s t hs ih =>
    obtain ⟨w, hw, hskip⟩ := ih
    have hbehind : behindGap s = behindGap (t.dropWhile (· ≠ '\n')) := by
      rw [behindGap, behindGap, skipTrivia_of_line hs]
    have hline : ∀ c ∈ t.takeWhile (· ≠ '\n'), c ≠ '\n' := by
      intro c hc
      simpa using List.mem_takeWhile_imp hc
    have hend := dropWhile_of_prefix (w := w) (t := t) ⟨_, hw.symm⟩
    refine exists_skipped_of_trimStart ?_ (hskip.line hline hend)
    rw [hbehind, hs, List.cons_append, List.cons_append, List.append_assoc, ← hw,
      List.takeWhile_append_dropWhile]
  | case2 s t hs before rest hcut ih =>
    obtain ⟨w, hw, hskip⟩ := ih
    have hbehind : behindGap s = behindGap rest := by
      rw [behindGap, behindGap, skipTrivia_of_block hs hcut]
    -- the comment is cut in the same place when only `w` stands behind it
    have hcut' := cut?_append hcut w
    obtain ⟨c, b, hb⟩ : ∃ c b, before ++ ['*', '/'] = c :: b :=
      List.exists_cons_of_ne_nil (by simp)
    obtain ⟨rfl, ht⟩ : '*' = c ∧ t = b ++ rest := by simpa [hb] using cut?_eq_some hcut
    rw [hb] at hcut'
    refine exists_skipped_of_trimStart (w := '/' :: '*' :: (b ++ w)) ?_ (hskip.block hcut')
    rw [hbehind, hs, ht, List.cons_append, List.cons_append, List.append_assoc, ← hw]
  | case3 s t hs hcut =>
    have hbehind : behindGap s = '/' :: '*' :: t := by
      rw [behindGap, skipTrivia_of_open hs hcut]
    exact exists_skipped_of_trimStart (hbehind ▸ hs) .nil
  | case4 s hline hblock =>
    have hbehind : behindGap s = trimStart s := by
      rw [behindGap, skipTrivia_of_end hline hblock]
    exact exists_skipped_of_trimStart hbehind.symm .nil

theorem behindGap_suffix (s : List Char) : behindGap s <:+ s := by
  obtain ⟨w, hw, -⟩ := exists_skipped s
  exact ⟨w, hw.symm⟩

/-- No stretch that is skipped goes beyond the gap. -/
theorem behindGap_append (h : Skipped w) (t : List Char) : behindGap (w ++ t) <:+ t := by
  rw [Skipped] at h
  fun_induction skipTrivia w with
  | case1 w u hs ih =>
    have htrim : trimStart (w ++ t) = '/' :: '/' :: (u ++ t) := by
      rw [trimStart, List.dropWhile_append, ← trimStart, hs]
      rfl
    rw [behindGap, skipTrivia_of_line htrim, ← behindGap, List.dropWhile_append]
    split
    · exact (behindGap_suffix _).trans (List.dropWhile_suffix _)
    · exact ih h
  | case2 w u hs before rest hcut ih =>
    have htrim : trimStart (w ++ t) = '/' :: '*' :: (u ++ t) := by
      rw [trimStart, List.dropWhile_append, ← trimStart, hs]
      rfl
    have hcut' : cut? ['*', '/'] ('*' :: (u ++ t)) = some (before, rest ++ t) := by
      rw [← List.cons_append, cut?_eq_some hcut, List.append_assoc]
      exact cut?_append hcut (rest ++ t)
    rw [behindGap, skipTrivia_of_block htrim hcut', ← behindGap]
    exact ih h
  | case3 => cases h
  | case4 w hline hblock =>
    have htrim : trimStart (w ++ t) = trimStart t := by
      rw [trimStart, List.dropWhile_append, ← trimStart, Except.ok.inj h]
      rfl
    rw [behindGap, skipTrivia_congr htrim, ← behindGap]
    exact behindGap_suffix t

/-! ## Gaps -/

/-- **Where a gap ends.** It ends where `skipTrivia` goes on or stops, and nowhere else. -/
theorem gap_iff : Gap s t ↔ behindGap s = t := by
  constructor
  · rintro ⟨w, hs, hw, hlongest⟩
    obtain ⟨w', hw', hskip⟩ := exists_skipped s
    have hshorter : w'.length ≤ w.length := (hlongest w' ⟨_, hw'.symm⟩ hskip).length_le
    have hend : behindGap s <:+ t := hs ▸ behindGap_append hw t
    have hlength := congrArg List.length (hw'.symm.trans hs)
    simp only [List.length_append] at hlength
    have hle := hend.length_le
    exact hend.eq_of_length (by omega)
  · rintro rfl
    obtain ⟨w, hw, hskip⟩ := exists_skipped s
    refine ⟨w, hw, hskip, ?_⟩
    rintro p ⟨t, ht⟩ hp
    obtain ⟨x, hx⟩ : behindGap s <:+ t := ht ▸ behindGap_append hp t
    have happend : (p ++ x) ++ behindGap s = w ++ behindGap s := by
      rw [List.append_assoc, hx, ht, ← hw]
    exact ⟨x, List.append_cancel_right happend⟩

theorem gap_of_skipTrivia (h : skipTrivia s = .ok t) : Gap s t := by
  rw [gap_iff, behindGap, h]

/-- `skipTrivia` stops only at the slash of a comment. -/
theorem head?_of_skipTrivia_error {stop : Stop} (h : skipTrivia s = .error stop) :
    stop.rest.head? = some '/' := by
  fun_induction skipTrivia s with
  | case1 s t hs ih => exact ih h
  | case2 s t hs before rest hcut ih => exact ih h
  | case3 =>
    cases h
    rfl
  | case4 => cases h

/-- A gap in front of anything but a slash is one that `skipTrivia` gets over. -/
theorem skipTrivia_of_gap (h : Gap s t) (ht : t.head? ≠ some '/') : skipTrivia s = .ok t := by
  rw [gap_iff, behindGap] at h
  split at h
  · next hok => rw [hok, h]
  · next stop hstop => exact absurd (h ▸ head?_of_skipTrivia_error hstop) ht

/-- Where no blank and no slash stands, a gap is empty. -/
theorem gap_self {c : Char} (hblank : isBlank c = false) (hslash : c ≠ '/') :
    Gap (c :: s) (c :: s) := by
  have htrim : trimStart (c :: s) = c :: s := List.dropWhile_cons_of_neg (by simp [hblank])
  refine gap_of_skipTrivia ?_
  rw [skipTrivia_of_end, htrim]
  · intro t ht
    exact hslash (List.cons.inj (htrim.symm.trans ht)).1
  · intro t ht
    exact hslash (List.cons.inj (htrim.symm.trans ht)).1

end StaticSite.Literal
