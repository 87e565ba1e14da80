import StaticSite.Proofs.Printing

/-!
# What a literal is read from

Every token of a literal is read with a look at what stands behind it: a number and a word go on as
far as they can, a gap ends where no comment begins, a `$` is a substitution in front of a brace. But
the look goes no further than to one character. A judgment about a text and what it leaves *carries*
over to another text behind the same characters if that begins with the same character; this goes
through whatever is put together of such judgments, and so through the grammar (`Derives.carries`).

At the end of a value even this character does not matter, unless the value is a number or a word that
could go on with it. So a literal is read from the text up to its end (`read_taken`).
-/

namespace StaticSite.Literal

open Text

/-- A character that a number or a word can go on with. -/
def isTokenPart (c : Char) : Bool := isWordPart c || c = '.' || c = '+' || c = '-'

/-- A text that does not begin with a character that a number or a word can go on with. -/
def Detached (t : List Char) : Prop := ∀ c, t.head? = some c → isTokenPart c = false

/-! ## Judgments that carry over -/

/-- A judgment about a text and what it leaves holds of other texts too, as long as only what is left
is exchanged, for one that it may be exchanged for. The first character of the text stays. -/
def Carries (May : List Char → Prop) (P : List Char → List Char → Prop) (s r : List Char) : Prop :=
  ∃ w, s = w ++ r ∧ ∀ t, May t → (w ++ t).head? = s.head? ∧ P (w ++ t) t

/-- Another text begins with the same character, or has none either. -/
def StartsAs (r t : List Char) : Prop := t.head? = r.head?

/-- What can stand behind a number or a word in place of another text. -/
def Follows (r t : List Char) : Prop := StartsAs r t ∨ Detached t

section

variable {May May' : List Char → Prop} {P Q : List Char → List Char → Prop} {s t r u w : List Char}

namespace Carries

theorem mono (h : Carries May P s r) (hmay : ∀ t, May' t → May t)
    (hP : ∀ u t, u.head? = s.head? → P u t → Q u t) : Carries May' Q s r := by
  obtain ⟨w, hs, hw⟩ := h
  refine ⟨w, hs, fun t ht => ?_⟩
  obtain ⟨hhead, hp⟩ := hw t (hmay t ht)
  exact ⟨hhead, hP _ _ hhead hp⟩

theorem imp (h : Carries May P s r) (hP : ∀ u t, P u t → Q u t) : Carries May Q s r :=
  h.mono (fun _ => id) fun u t _ => hP u t

/-- What is left by one judgment begins with the same character when what is left by the next one is
exchanged, so that both carry over together. -/
theorem comp (hP : Carries (StartsAs r) P s r) (hQ : Carries May Q r u) :
    Carries May (fun s u => ∃ r, P s r ∧ Q r u) s u := by
  obtain ⟨v, rfl, hv⟩ := hP
  obtain ⟨w, rfl, hw⟩ := hQ
  refine ⟨v ++ w, (List.append_assoc ..).symm, fun t ht => ?_⟩
  obtain ⟨hhead, hq⟩ := hw t ht
  obtain ⟨hhead', hp⟩ := hv (w ++ t) hhead
  rw [List.append_assoc]
  exact ⟨hhead', w ++ t, hp, hq⟩

/-- A judgment that holds whatever is left. -/
theorem of_forall (hne : w ≠ []) (h : ∀ t, P (w ++ t) t) :
    Carries May P (w ++ r) r := by
  refine ⟨w, rfl, fun t _ => ⟨?_, h t⟩⟩
  rw [List.head?_append_of_ne_nil _ hne, List.head?_append_of_ne_nil _ hne]

end Carries

/-- A token that was not gone on with before the exchange is not gone on with behind it. -/
theorem Follows.head {p : Char → Prop} (h : Follows r t) (hp : ∀ c, p c → isTokenPart c = true)
    (hr : ∀ c, r.head? = some c → ¬ p c) : ∀ c, t.head? = some c → ¬ p c := by
  intro c hc hpart
  rcases h with heq | hdetached
  · exact hr c (heq ▸ hc) hpart
  · exact Bool.eq_false_iff.1 (hdetached c hc) (hp c hpart)

/-! ## Gaps -/

theorem takeWhile_isBlank_append (h : trimStart s = t) : s = s.takeWhile isBlank ++ t := by
  rw [← h]
  exact List.takeWhile_append_dropWhile.symm

theorem skipTrivia_takeWhile (s t : List Char) :
    skipTrivia (s.takeWhile isBlank ++ t) = skipTrivia t :=
  skipTrivia_blanks (fun _ hc => List.mem_takeWhile_imp hc) t

/-- Where no blank and no slash stands, nothing is skipped. -/
theorem skipTrivia_of_plain (h : ∀ c, t.head? = some c → isBlank c = false ∧ c ≠ '/') :
    skipTrivia t = .ok t := by
  rcases t with _ | ⟨c, t⟩
  · exact Skipped.nil
  · obtain ⟨hblank, hslash⟩ := h c rfl
    exact skipTrivia_of_gap (gap_self hblank hslash) (by simpa using hslash)

/-- Behind a comment it is told by one character where `skipTrivia` goes on. -/
theorem exists_skipTrivia_append (h : skipTrivia s = .ok r) (hr : r.head? ≠ some '/') :
    ∃ w, s = w ++ r ∧ ∀ t, StartsAs r t → skipTrivia (w ++ t) = .ok t := by
  fun_induction skipTrivia s with
  | case1 s u hs ih =>
    obtain ⟨w, hw, hskip⟩ := ih h
    have hline : ∀ c ∈ u.takeWhile (· ≠ '\n'), decide (c ≠ '\n') = true := by
      intro c hc
      simpa using List.mem_takeWhile_imp hc
    refine ⟨s.takeWhile isBlank ++ '/' :: '/' :: (u.takeWhile (· ≠ '\n') ++ w), ?_, fun t ht => ?_⟩
    · have hu : u.takeWhile (· ≠ '\n') ++ (w ++ r) = u := hw ▸ List.takeWhile_append_dropWhile
      rw [List.append_assoc, List.cons_append, List.cons_append, List.append_assoc, hu]
      exact takeWhile_isBlank_append hs
    · -- what stands behind the line begins as before: with the line feed, if there is one
      have hhead : ∀ c, (w ++ t).head? = some c → decide (c ≠ '\n') = false := by
        intro c hc
        rw [List.head?_append, ht, ← List.head?_append, ← hw] at hc
        have hnot := List.head?_dropWhile_not (fun c => decide (c ≠ '\n')) u
        rw [hc] at hnot
        exact hnot
      have hdrop := Markup.dropWhile_append_of_head hline hhead
      rw [List.append_assoc, skipTrivia_takeWhile, List.cons_append, List.cons_append,
        List.append_assoc, skipTrivia_of_line rfl, hdrop, hskip t ht]
  | case2 s u hs before rest hcut ih =>
    obtain ⟨w, hw, hskip⟩ := ih h
    obtain ⟨c, b, hb⟩ : ∃ c b, before ++ ['*', '/'] = c :: b :=
      List.exists_cons_of_ne_nil (by simp)
    obtain ⟨rfl, hu⟩ : '*' = c ∧ u = b ++ rest := by simpa [hb] using cut?_eq_some hcut
    refine ⟨s.takeWhile isBlank ++ '/' :: '*' :: (b ++ w), ?_, fun t ht => ?_⟩
    · simpa [hu, hw] using takeWhile_isBlank_append hs
    · have hcut' := cut?_append hcut (w ++ t)
      rw [hb] at hcut'
      rw [List.append_assoc, skipTrivia_takeWhile, List.cons_append, List.cons_append,
        List.append_assoc, skipTrivia_of_block rfl hcut', hskip t ht]
  | case3 => cases h
  | case4 s hline hblock =>
    cases h
    refine ⟨s.takeWhile isBlank, takeWhile_isBlank_append rfl, fun t ht => ?_⟩
    rw [skipTrivia_takeWhile]
    refine skipTrivia_of_plain fun c hc => ?_
    rw [ht] at hc
    have hnot := List.head?_dropWhile_not isBlank s
    rw [← trimStart, hc] at hnot
    exact ⟨hnot, fun heq => hr (heq ▸ hc)⟩

theorem Gap.carries (h : Gap s r) (hr : r.head? ≠ some '/') : Carries (StartsAs r) Gap s r := by
  obtain ⟨w, rfl, hw⟩ := exists_skipTrivia_append (skipTrivia_of_gap h hr) hr
  refine ⟨w, rfl, fun t ht => ⟨?_, gap_of_skipTrivia (hw t ht)⟩⟩
  rw [List.head?_append, List.head?_append, ht]

/-- A gap in front of a mark, together with the mark. -/
theorem Gap.carries_mark {c : Char} (h : Gap s (c :: r)) (hc : c ≠ '/') :
    Carries May (fun s r => Gap s (c :: r)) s r := by
  obtain ⟨w, rfl, hw⟩ := h.carries (by simpa using hc)
  have hmark : Carries May (fun s r => Gap s (c :: r)) (w ++ [c] ++ r) r := by
    refine .of_forall (by simp) fun t => ?_
    simpa using (hw (c :: t) rfl).2
  simpa using hmark

/-! ## Numbers -/

/-- A character of the digits behind the mark of a base. -/
def isDigitIn (base : Nat) (c : Char) : Bool := (digitIn? base c).isSome || c = '_'

/-- A number behind its sign. -/
inductive Unsigned (negative : Bool) : List Char → Number → List Char → Prop where
  /-- digits behind the mark of their base -/
  | marked {s t : List Char} {base : Nat} {i : Int} (mark : readBase s = some (base, t))
      (value : (natIn? base (dropUnderscores (t.takeWhile (isDigitIn base)))).bind
        (signedInt? negative) = some i) : Unsigned negative s (.int i) (t.dropWhile (isDigitIn base))
  /-- a run that stands for a number -/
  | run {s run rest : List Char} {n : Number} (mark : readBase s = none)
      (split : decimalRun none s = (run, rest)) (value : runValue? negative run = some n) :
      Unsigned negative s n rest

/-- The reader of numbers takes a sign and what stands behind it. -/
theorem readNumber_iff {n : Number} : readNumber s = .ok (n, r) ↔
    ∃ t, (∃ negative, readSign s = (negative, t) ∧ Unsigned negative t n r) := by
  constructor
  · intro h
    refine ⟨(readSign s).2, (readSign s).1, rfl, ?_⟩
    rw [readNumber] at h
    dsimp only at h
    split at h
    · next base t hbase =>
      split at h
      · next i hi =>
        cases h
        exact .marked hbase hi
      · cases h
    · next hbase =>
      split at h
      · next x hx =>
        cases h
        exact .run hbase rfl hx
      · cases h
  · rintro ⟨t, negative, hsign, h⟩
    rw [readNumber, hsign]
    cases h with
    | marked mark value =>
      simp only [mark]
      unfold isDigitIn at value ⊢
      simp only [value]
    | run mark split value => simp only [mark, split, value]

theorem readSign_carries {negative : Bool} (h : readSign s = (negative, r)) :
    Carries (StartsAs r) (fun s r => readSign s = (negative, r)) s r := by
  unfold readSign at h
  split at h
  · cases h
    exact ⟨['-'], rfl, fun t _ => ⟨rfl, rfl⟩⟩
  · cases h
    exact ⟨['+'], rfl, fun t _ => ⟨rfl, rfl⟩⟩
  · next hminus hplus =>
    cases h
    refine ⟨[], rfl, fun t ht => ⟨ht, ?_⟩⟩
    have hne (d : Char) (v : List Char) (htext : t = d :: v) : ∃ u, s = d :: u :=
      List.head?_eq_some_iff.1 (by rw [← ht, htext, List.head?_cons])
    show readSign t = (false, t)
    unfold readSign
    split
    · next v =>
      obtain ⟨u, rfl⟩ := hne '-' v rfl
      exact absurd rfl (hminus u)
    · next v =>
      obtain ⟨u, rfl⟩ := hne '+' v rfl
      exact absurd rfl (hplus u)
    · rfl

/-- The mark of a base is two characters. -/
theorem readBase_front {base : Nat} (h : readBase s = some (base, t)) :
    ∃ m, m ≠ [] ∧ s = m ++ t ∧ ∀ u, readBase (m ++ u) = some (base, u) := by
  unfold readBase at h
  split at h
  case h_7 => cases h
  all_goals
    cases h
    exact ⟨['0', _], by simp, rfl, fun _ => rfl⟩

/-- Two characters tell whether there is a mark of a base. -/
theorem readBase_eq_none_congr (h : s.take 2 = t.take 2) (hs : readBase s = none) :
    readBase t = none := by
  unfold readBase
  split
  case h_7 => rfl
  all_goals
    rcases s with _ | ⟨c, _ | ⟨d, s⟩⟩ <;> simp only [List.take_succ_cons, List.take_zero,
      List.take_nil, List.cons.injEq, reduceCtorEq, and_false] at h
    obtain ⟨rfl, rfl, -⟩ := h
    cases hs

/-- No mark of a base is met when the text behind the first character is exchanged. -/
theorem readBase_follows {c : Char} (h : readBase (c :: (w ++ r)) = none) (ht : Follows r t) :
    readBase (c :: (w ++ t)) = none := by
  rcases w with _ | ⟨d, w⟩
  · -- the second character of the mark would be the first one of the text that is exchanged
    rcases ht with heq | hdetached
    · refine readBase_eq_none_congr ?_ h
      simp [List.take_one, heq.symm]
    · refine readBase_eq_none fun d u hu => ?_
      have hpart := hdetached d (congrArg List.head? hu)
      simp only [isTokenPart, isWordPart, Char.isAlphanum, Bool.or_eq_false_iff] at hpart
      tauto
  · exact readBase_eq_none_congr (s := c :: (d :: w ++ r)) rfl h

/-- A character that a run goes on with, behind another one or at its start. -/
def RunsOn (before : Option Char) (c : Char) : Prop :=
  c.isDigit ∨ c = '_' ∨ c = '.' ∨ c = 'e' ∨ c = 'E' ∨
    ((c = '+' ∨ c = '-') ∧ (before = some 'e' ∨ before = some 'E'))

theorem RunsOn.isTokenPart {before : Option Char} {c : Char} (h : RunsOn before c) :
    isTokenPart c = true := by
  obtain hdigit | rfl | rfl | rfl | rfl | ⟨rfl | rfl, -⟩ := h
  · simp [Literal.isTokenPart, isWordPart, Char.isAlphanum, hdigit]
  all_goals rfl

theorem decimalRun_cons_of_runsOn {before : Option Char} {c : Char} (h : RunsOn before c) :
    decimalRun before (c :: s) =
      (c :: (decimalRun (some c) s).1, (decimalRun (some c) s).2) := by
  rw [decimalRun]
  exact if_pos h

theorem decimalRun_of_head {before : Option Char} (h : ∀ c, s.head? = some c → ¬ RunsOn before c) :
    decimalRun before s = ([], s) := by
  rcases s with _ | ⟨c, s⟩
  · rfl
  · rw [decimalRun]
    exact if_neg (h c rfl)

/-- A run ends in the same place when what stands behind it is exchanged. -/
theorem decimalRun_follows {before : Option Char} {run : List Char}
    (h : decimalRun before s = (run, r)) (ht : Follows r t) :
    decimalRun before (run ++ t) = (run, t) := by
  induction s generalizing before run with
  | nil =>
    cases h
    exact decimalRun_of_head (ht.head (fun c hc => hc.isTokenPart) fun c hc => by cases hc)
  | cons c s ih =>
    by_cases hc : RunsOn before c
    · rw [decimalRun_cons_of_runsOn hc] at h
      cases h
      rw [List.cons_append, decimalRun_cons_of_runsOn hc, ih rfl]
    · have hhead : ∀ d, (c :: s).head? = some d → ¬ RunsOn before d := by
        rintro d hd
        cases hd
        exact hc
      rw [decimalRun_of_head hhead] at h
      cases h
      exact decimalRun_of_head (ht.head (fun c hc => hc.isTokenPart) hhead)

theorem isTokenPart_of_isDigitIn {base : Nat} {c : Char} (h : isDigitIn base c = true) :
    isTokenPart c = true := by
  simp only [isDigitIn, Bool.or_eq_true, decide_eq_true_eq, digitIn?] at h
  obtain hdigit | rfl := h
  · obtain ⟨d, hd⟩ := Option.isSome_iff_exists.1 hdigit
    have halnum := isAlphanum_of_isDigit (le_refl 16)
      (hexValue?_eq_some.1 (Option.filter_eq_some_iff.1 hd).1)
    simp [isTokenPart, isWordPart, halnum]
  · rfl

theorem Unsigned.carries {negative : Bool} {n : Number} (h : Unsigned negative s n r) :
    Carries (Follows r) (fun s r => Unsigned negative s n r) s r := by
  cases h with
  | @marked u base i mark value =>
    obtain ⟨m, hm, rfl, hmark⟩ := readBase_front mark
    refine ⟨m ++ u.takeWhile (isDigitIn base), ?_, fun t ht => ?_⟩
    · rw [List.append_assoc, List.takeWhile_append_dropWhile]
    · have hdigits : ∀ c ∈ u.takeWhile (isDigitIn base), isDigitIn base c = true :=
        fun c hc => List.mem_takeWhile_imp hc
      have hend : ∀ c, t.head? = some c → isDigitIn base c = false := by
        intro c hc
        refine Bool.eq_false_iff.2 (ht.head (fun c => isTokenPart_of_isDigitIn) ?_ c hc)
        intro d hd
        have hnot := List.head?_dropWhile_not (isDigitIn base) u
        rw [hd] at hnot
        simpa using hnot
      have htake := Markup.takeWhile_append_of_head hdigits hend
      have hread := Unsigned.marked (hmark (u.takeWhile (isDigitIn base) ++ t)) (htake ▸ value)
      rw [Markup.dropWhile_append_of_head hdigits hend] at hread
      rw [List.append_assoc]
      exact ⟨by rw [List.head?_append_of_ne_nil _ hm, List.head?_append_of_ne_nil _ hm], hread⟩
  | @run run r n mark split value =>
    have hs : run ++ r = s := by simpa [split] using decimalRun_append none s
    rcases run with _ | ⟨c, run⟩
    · simp [runValue?_nil] at value
    · subst hs
      exact ⟨c :: run, rfl, fun t ht =>
        ⟨rfl, .run (readBase_follows mark ht) (decimalRun_follows split ht) value⟩⟩

theorem Numeral.carries {n : Number} (h : Numeral s n r) :
    Carries (Follows r) (fun s r => Numeral s n r) s r := by
  obtain ⟨⟨c, hhead, hc⟩, hread⟩ := h
  obtain ⟨u, negative, hsign, hunsigned⟩ := readNumber_iff.1 hread
  refine ((readSign_carries hsign).comp hunsigned.carries).mono (fun _ => id) ?_
  rintro v t hv ⟨w, hsign, hunsigned⟩
  exact ⟨⟨c, hv.trans hhead, hc⟩, readNumber_iff.2 ⟨w, negative, hsign, hunsigned⟩⟩

/-! ## Other tokens -/

theorem Word.carries {word : List Char} (h : Word s word r) :
    Carries (Follows r) (fun s r => Word s word r) s r := by
  obtain ⟨rfl, hstart, hinside, hlongest⟩ := h
  refine ⟨word, rfl, fun t ht => ⟨?_, rfl, hstart, hinside, ?_⟩⟩
  · obtain ⟨c, hc, -⟩ := hstart
    rw [List.head?_append, List.head?_append, hc]
    rfl
  · intro c hc
    refine Bool.eq_false_iff.2 (ht.head (p := fun c => isWordPart c = true) ?_ ?_ c hc)
    · intro c hpart
      simp [isTokenPart, hpart]
    · intro c hc
      exact Bool.eq_false_iff.1 (hlongest c hc)

theorem Quoted.carries {d : Delimiter} {content : List Char} (h : Quoted d s content r) :
    Carries May (fun s r => Quoted d s content r) s r := by
  obtain ⟨u, rfl, hread⟩ := h
  obtain ⟨body, rfl, hwrites⟩ := readText_iff.1 hread
  have hquoted :
      Carries May (fun s r => Quoted d s content r) (d.char :: body ++ [d.char] ++ r) r :=
    .of_forall (by simp) fun t => ⟨body ++ d.char :: t, by simp, readText_complete hwrites t⟩
  simpa using hquoted

theorem Scalar.carries {v : Data} (h : Scalar s v r) :
    Carries (fun t => Enclosed v ∨ Follows r t) (fun s r => Scalar s v r) s r := by
  cases h with
  | text quoted => exact quoted.carries.imp fun u t h => .text h
  | number numeral =>
    exact numeral.carries.mono (fun t ht => ht.resolve_left id) fun u t _ h => .number h
  | bool word => exact word.carries.mono (fun t ht => ht.resolve_left id) fun u t _ h => .bool h
  | null word => exact word.carries.mono (fun t ht => ht.resolve_left id) fun u t _ h => .null h
  | undefined word =>
    exact word.carries.mono (fun t ht => ht.resolve_left id) fun u t _ h => .undefined h

theorem Key.carries {key : List Char} (h : Key s key r) :
    Carries (StartsAs r) (fun s r => Key s key r) s r := by
  cases h with
  | text string quoted => exact quoted.carries.imp fun u t h => .text string h
  | word isWord => exact isWord.carries.mono (fun t => .inl) fun u t _ h => .word h
  | number digit numeral =>
    exact numeral.carries.mono (fun t => .inl) fun u t hu h => .number (hu ▸ digit) h

/-! ## The grammar -/

/-- What is enclosed in an opening and a closing mark does not look at what stands behind it. -/
theorem carries_enclosed {e : Element} {ms : List e.Meaning} {c : Char} (hc : c ≠ '/')
    (opening : Gap s (c :: t))
    (inside : Carries (StartsAs u) (fun s r => Derives (.listing e) s ms r) t u)
    (closing : Gap u (e.closing :: r)) :
    Carries May (fun s r => ∃ t, Gap s (c :: t) ∧ Closes e t ms r) s r := by
  have hclosing : e.closing ≠ '/' := by cases e <;> decide
  exact (opening.carries_mark hc).comp (inside.comp (closing.carries_mark hclosing))

/-- **The look ahead is one character.** What is derived in the grammar is derived from the same
characters when another text stands behind them that begins with the same character. -/
theorem Derives.carries {x : Symbol} {m : x.Meaning} (h : Derives x s m r) :
    Carries (StartsAs r) (fun s r => Derives x s m r) s r := by
  induction h with
  | scalar gap token =>
    -- the gap ends there for good, since no token starts with the slash of one more comment
    have hslash := head?_ne_of_startsToken token.startsToken (c := '/') rfl
    have htoken := token.carries.mono (fun t ht => .inr (.inl ht)) fun u t _ h => h
    refine ((gap.carries hslash).comp htoken).imp ?_
    rintro u t ⟨w, hgap, hscalar⟩
    exact .scalar hgap hscalar
  | list opening items closing ih =>
    refine (carries_enclosed (by decide) opening ih closing).imp ?_
    rintro u t ⟨w, hopening, v, hitems, hclosing⟩
    exact .list hopening hitems hclosing
  | object opening members closing ih =>
    refine (carries_enclosed (by decide) opening ih closing).imp ?_
    rintro u t ⟨w, hopening, v, hmembers, hclosing⟩
    exact .object hopening hmembers hclosing
  | member gap name colon value ih =>
    have hslash := head?_ne_of_startsToken name.startsToken (c := '/') rfl
    have hvalue := (colon.carries_mark (by decide)).comp ih
    refine ((gap.carries hslash).comp (name.carries.comp hvalue)).imp ?_
    rintro u t ⟨w, hgap, x, hname, y, hcolon, hvalue⟩
    exact .member hgap hname hcolon hvalue
  | empty => exact ⟨[], rfl, fun t ht => ⟨ht, .empty⟩⟩
  | @some e s t u r m ms first others comma ihFirst ihOthers =>
    have hcomma : Carries (StartsAs r) (fun u r => r = u ∨ Gap u (',' :: r)) u r := by
      obtain rfl | hgap := comma
      · exact ⟨[], rfl, fun t ht => ⟨ht, .inl rfl⟩⟩
      · exact (hgap.carries_mark (by decide)).imp fun u t h => .inr h
    refine (ihFirst.comp (ihOthers.comp hcomma)).imp ?_
    rintro u t ⟨w, hfirst, x, hothers, hcomma⟩
    exact .some hfirst hothers hcomma
  | last => exact ⟨[], rfl, fun t ht => ⟨ht, .last⟩⟩
  | next comma one others ihOne ihOthers =>
    refine ((comma.carries_mark (by decide)).comp (ihOne.comp ihOthers)).imp ?_
    rintro u t ⟨w, hcomma, x, hone, hothers⟩
    exact .next hcomma hone hothers

/-- Behind a value with a delimiter of its own anything can stand, and behind any other one what does
not go on with it. -/
theorem Derives.carries_value {v : Data} (h : Derives (.one .value) s v r) :
    Carries (fun t => Enclosed v ∨ Detached t) (fun s r => Derives (.one .value) s v r) s r := by
  cases h with
  | scalar gap token =>
    have hslash := head?_ne_of_startsToken token.startsToken (c := '/') rfl
    refine ((gap.carries hslash).comp token.carries).mono (fun t ht => ht.imp_right .inr) ?_
    rintro u t - ⟨w, hgap, hscalar⟩
    exact .scalar hgap hscalar
  | list opening items closing =>
    refine (carries_enclosed (by decide) opening items.carries closing).imp ?_
    rintro u t ⟨w, hopening, v, hitems, hclosing⟩
    exact .list hopening hitems hclosing
  | object opening members closing =>
    refine (carries_enclosed (by decide) opening members.carries closing).imp ?_
    rintro u t ⟨w, hopening, v, hmembers, hclosing⟩
    exact .object hopening hmembers hclosing

end

/-- What is read is derived from a value. -/
theorem derives_of_read {src : String} {v : Data} {last : Nat} (h : read src = .ok (v, last)) :
    ∃ taken rest, src.toList = taken ++ rest ∧ byteLength taken = last ∧
      Derives (.one .value) (taken ++ rest) v rest := by
  rw [read] at h
  split at h
  · next hvalue =>
    cases h
    obtain ⟨taken, htaken⟩ := (leaves_value? _).of_ok hvalue
    refine ⟨taken, _, htaken.symm, ?_, ?_⟩
    · rw [← htaken, byteLength_append, Nat.add_sub_cancel]
    · rw [htaken]
      exact givesOne_iff.1 (value?_eq_ok.1 hvalue)
  · cases h

/-- What a value is derived from is not empty. -/
theorem Derives.byteLength_pos {v : Data} {taken rest : List Char}
    (h : Derives (.one .value) (taken ++ rest) v rest) : 0 < byteLength taken := by
  rcases taken with _ | ⟨c, taken⟩
  · exact absurd (givesOne_iff.2 h).length_lt (lt_irrefl _)
  · rw [byteLength_cons]
    exact Nat.add_pos_left c.utf8Size_pos _

/-- **A literal is read from what stands in front of its end.** The end is behind a character of the
text. Of the text up to it, the reader makes the same value with the same end, and it does whatever
else stands behind: anything behind a text, a list or an object, and behind a number or a word any
text that does not begin with a character that these could go on with. -/
theorem read_taken {src : String} {v : Data} {last : Nat} (h : read src = .ok (v, last)) :
    ∃ taken rest, src.toList = taken ++ rest ∧ byteLength taken = last ∧
      0 < last ∧ last ≤ byteLength src.toList ∧
      read (String.ofList taken) = .ok (v, last) ∧
      ∀ t, Enclosed v ∨ Detached t → read (String.ofList (taken ++ t)) = .ok (v, last) := by
  obtain ⟨taken, rest, hsrc, rfl, hderives⟩ := derives_of_read h
  obtain ⟨w, hw, hcarries⟩ := hderives.carries_value
  obtain rfl := List.append_cancel_right hw
  have hread (t : List Char) (ht : Enclosed v ∨ Detached t) :
      read (String.ofList (taken ++ t)) = .ok (v, byteLength taken) :=
    read_of_derives String.toList_ofList (hcarries t ht).2
  have hnil : Detached [] := fun c hc => by cases hc
  refine ⟨taken, rest, hsrc, rfl, hderives.byteLength_pos, ?_, ?_, hread⟩
  · rw [hsrc, byteLength_append]
    exact Nat.le_add_right ..
  · simpa using hread [] (.inr hnil)

/-- A sign behind an exponent letter, and a text behind the number that does not belong to it. -/
theorem read_taken_exponent :
    let x : Number := .double ⟨true, 5629499534213120, -51⟩
    read "-2_5e-1*x" = .ok (.number x, 7) ∧
      ∃ taken rest, "-2_5e-1*x".toList = taken ++ rest ∧ byteLength taken = 7 ∧
        0 < 7 ∧ 7 ≤ byteLength "-2_5e-1*x".toList ∧
        read (String.ofList taken) = .ok (.number x, 7) ∧
        ∀ t, Enclosed (.number x) ∨ Detached t →
          read (String.ofList (taken ++ t)) = .ok (.number x, 7) := by
  intro x
  have hnumber : readNumber "-2_5e-1*x".toList = .ok (x, "*x".toList) := by decide +kernel
  have hread : read "-2_5e-1*x" = .ok (.number x, 7) :=
    read_of_readNumber (c := '-') (s := "2_5e-1".toList) (t := "*x".toList) rfl hnumber
  exact ⟨hread, read_taken hread⟩

end StaticSite.Literal
