import Mathlib.Logic.Relation
import StaticSite.Proofs.Gaps
import StaticSite.Proofs.OpenBraces

/-!
# Where white space and comments end

White space and comments come in pieces: a blank, a comment up to the end of its line, a comment up
to the first mark of its end. `skipTrivia` takes one piece after the other, as long as there is one,
and stops in front of a comment that is never closed. The pieces it takes are these (`Filler`) but
for one: the asterisk that opens a comment serves it as the first character of the end too, so that
the three characters of `/*/` are a comment (`ReadFiller`).

`triviaEnd_iff` tells the end and the failure by the pieces that are read, and when they are those of
the comments as they are meant.
-/

namespace StaticSite

open Text

/-! ## The first mark -/

namespace Text

/-- A text is cut around a mark that begins nowhere before. -/
theorem cut?_iff {mark s before rest : List Char} (hmark : mark ≠ []) :
    cut? mark s = some (before, rest) ↔
      s = before ++ mark ++ rest ∧ ¬ mark <:+: before ++ mark.dropLast := by
  have hdropLast (u : List Char) : (u ++ mark).dropLast = u ++ mark.dropLast :=
    List.dropLast_append_of_ne_nil hmark
  constructor
  · intro h
    refine ⟨cut?_eq_some h, fun hinfix => ?_⟩
    obtain ⟨b, r, hcut⟩ := exists_cut?_of_infix hinfix
    have hlast : mark.dropLast ++ [mark.getLast hmark] = mark := List.dropLast_append_getLast hmark
    -- the mark would be found there already
    have hearly := cut?_append hcut (r ++ [mark.getLast hmark] ++ rest)
    have hs : b ++ mark ++ (r ++ [mark.getLast hmark] ++ rest) = s := by
      rw [cut?_eq_some h, ← List.append_assoc, ← List.append_assoc, ← cut?_eq_some hcut,
        List.append_assoc before, hlast]
    rw [hs, h] at hearly
    obtain ⟨rfl, -⟩ := Prod.mk.inj (Option.some.inj hearly)
    have hlength := length_of_cut? hcut
    have hpos := List.length_pos_iff.2 hmark
    rw [List.length_append, List.length_dropLast] at hlength
    omega
  · rintro ⟨rfl, hfirst⟩
    rw [← hdropLast] at hfirst
    obtain ⟨b, hcut⟩ := cut?_of_suffix (List.suffix_append before mark) hfirst
    obtain rfl : before = b := by simpa using cut?_eq_some hcut
    exact cut?_append hcut rest

end Text

namespace Literal

open Relation (ReflTransGen)

variable {s t u v : List Char}

/-! ## Pieces -/

/-- A piece of white space and comments at the start of a text, and the text behind it. -/
inductive Filler : List Char → List Char → Prop where
  /-- a blank -/
  | blank {c : Char} {t : List Char} (hblank : isBlank c = true) : Filler (c :: t) t
  /-- a comment up to the end of its line, or of the text -/
  | line {inside t : List Char} (hinside : '\n' ∉ inside) (hend : t = [] ∨ t.head? = some '\n') :
      Filler ('/' :: '/' :: (inside ++ t)) t
  /-- a comment up to the first mark of its end behind its opening -/
  | block {inside t : List Char} (hfirst : ¬ ['*', '/'] <:+: inside ++ ['*']) :
      Filler ('/' :: '*' :: (inside ++ '*' :: '/' :: t)) t

/-- A piece other than a comment that starts `/*/`. -/
def PlainFiller (s t : List Char) : Prop := Filler s t ∧ ¬ ['/', '*', '/'] <+: s

/-- A piece as it is read: of a comment that starts `/*/`, only these three characters. -/
def ReadFiller (s t : List Char) : Prop := PlainFiller s t ∨ s = '/' :: '*' :: '/' :: t

/-- A block comment without the mark of its end. -/
def Unclosed (s : List Char) : Prop := ∃ t, s = '/' :: '*' :: t ∧ ¬ ['*', '/'] <:+: t

/-- What stands behind the longest sequence of pieces. -/
def BehindAll (Piece : List Char → List Char → Prop) (s t : List Char) : Prop :=
  ReflTransGen Piece s t ∧ ∀ u, ReflTransGen Piece s u → t <:+ u

/-- White space and comments end in front of a text. -/
def EndsAt (Piece : List Char → List Char → Prop) (s t : List Char) : Prop :=
  BehindAll Piece s t ∧ ¬ Unclosed t

/-! ### Kinds of pieces -/

/-- What makes pieces: each text starts with one at most, and is longer than what stands behind. -/
structure IsPiecewise (Piece : List Char → List Char → Prop) : Prop where
  /-- a text starts with one piece -/
  unique : Relator.RightUnique Piece
  /-- what stands behind it is an end of the text -/
  suffix : ∀ {s t}, Piece s t → t <:+ s
  /-- and shorter -/
  shorter : ∀ {s t}, Piece s t → t.length < s.length

namespace IsPiecewise

variable {Piece : List Char → List Char → Prop} (hpiece : IsPiecewise Piece)

include hpiece

theorem suffix_of_run (h : ReflTransGen Piece s t) : t <:+ s := by
  induction h with
  | refl => exact List.suffix_refl s
  | tail _ hstep ih => exact (hpiece.suffix hstep).trans ih

/-- A sequence of pieces is the longest one if no piece follows. -/
theorem behindAll_iff : BehindAll Piece s t ↔ ReflTransGen Piece s t ∧ ∀ u, ¬ Piece t u := by
  constructor
  · rintro ⟨hrun, hlongest⟩
    refine ⟨hrun, fun u hu => ?_⟩
    have hle := (hlongest u (hrun.tail hu)).length_le
    have hlt := hpiece.shorter hu
    omega
  · rintro ⟨hrun, hstop⟩
    refine ⟨hrun, fun u hu => ?_⟩
    rcases ReflTransGen.total_of_right_unique hpiece.unique hrun hu with htu | hut
    · rcases ReflTransGen.cases_head htu with rfl | ⟨v, hv, -⟩
      · exact List.suffix_refl t
      · exact absurd hv (hstop v)
    · exact hpiece.suffix_of_run hut

/-- There is a longest sequence of pieces, -/
theorem exists_behindAll (s : List Char) : ∃ t, BehindAll Piece s t := by
  induction hlength : s.length using Nat.strongRecOn generalizing s with
  | _ n ih =>
    by_cases h : ∃ u, Piece s u
    · obtain ⟨u, hu⟩ := h
      obtain ⟨t, ht⟩ := ih _ (hlength ▸ hpiece.shorter hu) u rfl
      obtain ⟨hrun, hstop⟩ := hpiece.behindAll_iff.1 ht
      exact ⟨t, hpiece.behindAll_iff.2 ⟨.head hu hrun, hstop⟩⟩
    · exact ⟨s, hpiece.behindAll_iff.2 ⟨.refl, fun u hu => h ⟨u, hu⟩⟩⟩

omit hpiece in
/-- and only one. -/
theorem behindAll_unique (ht : BehindAll Piece s t) (hu : BehindAll Piece s u) : t = u :=
  (ht.2 u hu.1).eq_of_length_le (hu.2 t ht.1).length_le

/-- A sequence of pieces goes on to the same end from everywhere within. -/
theorem behindAll_of_run (h : ReflTransGen Piece s u) : BehindAll Piece s t ↔ BehindAll Piece u t := by
  rw [hpiece.behindAll_iff, hpiece.behindAll_iff]
  refine and_congr_left fun hstop => ⟨fun hst => ?_, h.trans⟩
  rcases ReflTransGen.total_of_right_unique hpiece.unique h hst with hut | htu
  · exact hut
  · rcases ReflTransGen.cases_head htu with rfl | ⟨v, hv, -⟩
    · exact .refl
    · exact absurd hv (hstop v)

end IsPiecewise

/-! ### Pieces of white space and comments -/

/-- What a piece is, by what the text starts with. -/
theorem filler_iff : Filler s t ↔
    (∃ c, s = c :: t ∧ isBlank c = true) ∨
      (∃ u, s = '/' :: '/' :: u ∧ u.dropWhile (· ≠ '\n') = t) ∨
      ∃ u inside, s = '/' :: '*' :: u ∧ cut? ['*', '/'] u = some (inside, t) := by
  constructor
  · rintro (hblank | ⟨hinside, hend⟩ | hfirst)
    · exact .inl ⟨_, rfl, hblank⟩
    · refine .inr (.inl ⟨_, rfl, ?_⟩)
      rw [List.dropWhile_append_of_pos]
      · rcases hend with rfl | hhead
        · rfl
        · obtain ⟨u, rfl⟩ := List.head?_eq_some_iff.1 hhead
          exact List.dropWhile_cons_of_neg (by simp)
      · intro c hc
        simpa using fun heq : c = '\n' => hinside (heq ▸ hc)
    · exact .inr (.inr ⟨_, _, rfl, (cut?_iff (by simp)).2 ⟨by simp, hfirst⟩⟩)
  · rintro (⟨c, rfl, hblank⟩ | ⟨u, rfl, rfl⟩ | ⟨u, inside, rfl, hcut⟩)
    · exact .blank hblank
    · have hinside : '\n' ∉ u.takeWhile (· ≠ '\n') :=
        fun hmem => by simpa using List.mem_takeWhile_imp hmem
      have hline := Filler.line hinside (t := u.dropWhile (· ≠ '\n')) ?_
      · rwa [List.takeWhile_append_dropWhile] at hline
      · rcases hdrop : u.dropWhile (· ≠ '\n') with _ | ⟨c, v⟩
        · exact .inl rfl
        · have hc := List.head?_dropWhile_not (· ≠ '\n') u
          rw [hdrop] at hc
          exact .inr (by simpa using hc)
    · obtain ⟨rfl, hfirst⟩ := (cut?_iff (by simp)).1 hcut
      rw [List.append_assoc]
      exact .block hfirst

theorem isPiecewise_filler : IsPiecewise Filler where
  unique s t u ht hu := by
    have hslash : isBlank '/' = false := by decide
    rcases filler_iff.1 ht with ⟨c, rfl, hc⟩ | ⟨v, rfl, rfl⟩ | ⟨v, inside, rfl, hcut⟩
    · rcases filler_iff.1 hu with ⟨d, heq, -⟩ | ⟨w, heq, -⟩ | ⟨w, inside, heq, -⟩
      · exact (List.cons.inj heq).2
      · rw [(List.cons.inj heq).1, hslash] at hc
        cases hc
      · rw [(List.cons.inj heq).1, hslash] at hc
        cases hc
    · rcases filler_iff.1 hu with ⟨d, heq, hd⟩ | ⟨w, heq, rfl⟩ | ⟨w, inside, heq, -⟩
      · rw [← (List.cons.inj heq).1, hslash] at hd
        cases hd
      · cases heq
        rfl
      · cases heq
    · rcases filler_iff.1 hu with ⟨d, heq, hd⟩ | ⟨w, heq, -⟩ | ⟨w, inside', heq, hcut'⟩
      · rw [← (List.cons.inj heq).1, hslash] at hd
        cases hd
      · cases heq
      · cases heq
        exact (Prod.mk.inj (Option.some.inj (hcut.symm.trans hcut'))).2
  suffix {s t} h := by
    cases h with
    | blank _ => exact List.suffix_cons _ t
    | @line inside => exact ⟨'/' :: '/' :: inside, by simp⟩
    | @block inside => exact ⟨'/' :: '*' :: (inside ++ ['*', '/']), by simp⟩
  shorter {s t} h := by
    cases h with
    | blank _ => simp
    | line _ _ | block _ =>
      simp only [List.length_cons, List.length_append]
      omega

theorem isPiecewise_readFiller : IsPiecewise ReadFiller where
  unique s t u ht hu := by
    rcases ht with ⟨ht, hstart⟩ | rfl
    · rcases hu with ⟨hu, -⟩ | rfl
      · exact isPiecewise_filler.unique ht hu
      · exact absurd ⟨u, rfl⟩ hstart
    · rcases hu with ⟨-, hstart⟩ | heq
      · exact absurd ⟨t, rfl⟩ hstart
      · cases heq
        rfl
  suffix {s t} h := by
    rcases h with ⟨h, -⟩ | rfl
    · exact isPiecewise_filler.suffix h
    · exact ⟨['/', '*', '/'], rfl⟩
  shorter {s t} h := by
    rcases h with ⟨h, -⟩ | rfl
    · exact isPiecewise_filler.shorter h
    · simp only [List.length_cons]
      omega

/-! ## What `skipTrivia` does -/

/-- A comment that does not start `/*/` ends at the first mark behind its opening. -/
theorem cut?_cons_of_plain (hstart : ¬ ['/', '*', '/'] <+: '/' :: '*' :: s) :
    cut? ['*', '/'] ('*' :: s) =
      (cut? ['*', '/'] s).map fun (inside, t) => ('*' :: inside, t) := by
  have hnone : startsWith? ['*', '/'] ('*' :: s) = none := by
    rw [Option.eq_none_iff_forall_ne_some]
    intro t ht
    rw [startsWith?_eq_some] at ht
    exact hstart ⟨t, by rw [ht]; rfl⟩
  rw [cut?, hnone]

theorem skipTrivia_of_readFiller (h : ReadFiller s t) : skipTrivia s = skipTrivia t := by
  rcases h with ⟨h, hstart⟩ | rfl
  · rcases filler_iff.1 h with ⟨c, rfl, hc⟩ | ⟨u, rfl, rfl⟩ | ⟨u, inside, rfl, hcut⟩
    · exact skipTrivia_congr (List.dropWhile_cons_of_pos hc)
    · exact skipTrivia_of_line rfl
    · have hread : cut? ['*', '/'] ('*' :: u) = some ('*' :: inside, t) := by
        rw [cut?_cons_of_plain hstart, hcut]
        rfl
      exact skipTrivia_of_block rfl hread
  · exact skipTrivia_of_block rfl rfl

/-- Where no piece follows, there is the end or a comment that is never closed. -/
theorem skipTrivia_of_no_piece (h : ∀ t, ¬ ReadFiller s t) :
    (¬ Unclosed s ∧ skipTrivia s = .ok s) ∨
      (Unclosed s ∧ skipTrivia s = .error ⟨.unterminatedComment, s⟩) := by
  have htrim : trimStart s = s := by
    rcases s with _ | ⟨c, s⟩
    · rfl
    · refine List.dropWhile_cons_of_neg fun hc => h s (.inl ⟨.blank hc, ?_⟩)
      rintro ⟨t, ht⟩
      rw [← (List.cons.inj ht).1] at hc
      revert hc
      decide
  have hline (t : List Char) : s ≠ '/' :: '/' :: t := by
    rintro rfl
    exact h _ (.inl ⟨filler_iff.2 (.inr (.inl ⟨t, rfl, rfl⟩)), by rintro ⟨u, hu⟩; cases hu⟩)
  by_cases hblock : ∃ t, s = '/' :: '*' :: t
  · obtain ⟨t, rfl⟩ := hblock
    have hstart : ¬ ['/', '*', '/'] <+: '/' :: '*' :: t := by
      rintro ⟨u, hu⟩
      exact h u (.inr hu.symm)
    have hnone : cut? ['*', '/'] t = none := by
      rw [Option.eq_none_iff_forall_ne_some]
      rintro ⟨inside, u⟩ hcut
      exact h u (.inl ⟨filler_iff.2 (.inr (.inr ⟨t, inside, rfl, hcut⟩)), hstart⟩)
    refine .inr ⟨⟨t, rfl, fun hinfix => ?_⟩, skipTrivia_of_open rfl ?_⟩
    · obtain ⟨inside, u, hcut⟩ := exists_cut?_of_infix hinfix
      cases hnone.symm.trans hcut
    · rw [cut?_cons_of_plain hstart, hnone]
      rfl
  · refine .inl ⟨fun ⟨t, ht, _⟩ => hblock ⟨t, ht⟩, ?_⟩
    rw [skipTrivia_of_end, htrim]
    · rwa [htrim]
    · intro t ht
      exact hblock ⟨t, htrim.symm.trans ht⟩

/-- **What `skipTrivia` does.** It gets behind all pieces that are read, and gives what stands there
unless that is a comment that is never closed. -/
theorem skipTrivia_of_behindAll (h : BehindAll ReadFiller s t) :
    (¬ Unclosed t ∧ skipTrivia s = .ok t) ∨
      (Unclosed t ∧ skipTrivia s = .error ⟨.unterminatedComment, t⟩) := by
  obtain ⟨hrun, hstop⟩ := isPiecewise_readFiller.behindAll_iff.1 h
  have hsame : skipTrivia s = skipTrivia t := by
    clear h hstop
    induction hrun with
    | refl => rfl
    | tail _ hstep ih => rw [ih, skipTrivia_of_readFiller hstep]
  rw [hsame]
  exact skipTrivia_of_no_piece hstop

theorem skipTrivia_eq_ok_iff : skipTrivia s = .ok t ↔ EndsAt ReadFiller s t := by
  obtain ⟨u, hu⟩ := isPiecewise_readFiller.exists_behindAll s
  constructor
  · intro h
    rcases skipTrivia_of_behindAll hu with ⟨hclosed, hok⟩ | ⟨-, herror⟩
    · cases h.symm.trans hok
      exact ⟨hu, hclosed⟩
    · cases h.symm.trans herror
  · rintro ⟨ht, hclosed⟩
    rcases skipTrivia_of_behindAll ht with ⟨-, hok⟩ | ⟨hopen, -⟩
    · exact hok
    · exact absurd hopen hclosed

theorem skipTrivia_eq_error_iff {stop : Stop} : skipTrivia s = .error stop ↔
    ∃ t, BehindAll ReadFiller s t ∧ Unclosed t ∧ stop = ⟨.unterminatedComment, t⟩ := by
  obtain ⟨u, hu⟩ := isPiecewise_readFiller.exists_behindAll s
  constructor
  · intro h
    rcases skipTrivia_of_behindAll hu with ⟨-, hok⟩ | ⟨hopen, herror⟩
    · cases h.symm.trans hok
    · exact ⟨u, hu, hopen, Except.error.inj (h.symm.trans herror)⟩
  · rintro ⟨t, ht, hopen, rfl⟩
    rcases skipTrivia_of_behindAll ht with ⟨hclosed, -⟩ | ⟨-, herror⟩
    · exact absurd hopen hclosed
    · exact herror

/-! ## When the pieces are those that are meant -/

/-- The white space and comments of a text end where they are meant to, or are meant to have no end. -/
def Agrees (s : List Char) : Prop := ∀ t, EndsAt ReadFiller s t ↔ EndsAt Filler s t

theorem readFiller_of_plain : ∀ s t, PlainFiller s t → ReadFiller s t := fun _ _ h => .inl h

theorem filler_of_plain : ∀ s t, PlainFiller s t → Filler s t := fun _ _ h => h.1

/-- Where no comment that starts `/*/` is met, all pieces that are read are plain. -/
theorem plain_of_no_slash (hno : ∀ u, ¬ ReflTransGen PlainFiller s ('/' :: '*' :: '/' :: u))
    (h : ReflTransGen ReadFiller s t) : ReflTransGen PlainFiller s t := by
  induction h with
  | refl => exact .refl
  | tail _ hstep ih =>
    rcases hstep with hplain | rfl
    · exact ih.tail hplain
    · exact absurd ih (hno _)

theorem EndsAt.of_run (h : ReflTransGen ReadFiller s u) :
    EndsAt ReadFiller s t ↔ EndsAt ReadFiller u t :=
  and_congr_left' (isPiecewise_readFiller.behindAll_of_run h)

/-- **Only a comment that starts `/*/` can make a difference**, by what is read behind these three
characters. -/
theorem agrees_iff : Agrees s ↔ ∀ u, ReflTransGen PlainFiller s ('/' :: '*' :: '/' :: u) →
    ∀ t, EndsAt ReadFiller u t ↔ EndsAt Filler s t := by
  have hread {u : List Char} (h : ReflTransGen PlainFiller s ('/' :: '*' :: '/' :: u)) :
      ReflTransGen ReadFiller s u := (ReflTransGen.mono readFiller_of_plain _ _ h).tail (.inr rfl)
  constructor
  · intro h u hu t
    rw [← EndsAt.of_run (hread hu)]
    exact h t
  · intro h t
    by_cases hmet : ∃ u, ReflTransGen PlainFiller s ('/' :: '*' :: '/' :: u)
    · obtain ⟨u, hu⟩ := hmet
      rw [EndsAt.of_run (hread hu)]
      exact h u hu t
    · have hno := not_exists.1 hmet
      obtain ⟨v, hv⟩ := isPiecewise_readFiller.exists_behindAll s
      obtain ⟨hrun, hstop⟩ := isPiecewise_readFiller.behindAll_iff.1 hv
      have hplain := plain_of_no_slash hno hrun
      have hv' : BehindAll Filler s v := by
        refine isPiecewise_filler.behindAll_iff.2
          ⟨ReflTransGen.mono filler_of_plain _ _ hplain, fun u hu => ?_⟩
        refine hstop u (.inl ⟨hu, ?_⟩)
        rintro ⟨w, rfl⟩
        exact hno w hplain
      constructor
      · rintro ⟨ht, hclosed⟩
        exact ⟨IsPiecewise.behindAll_unique hv ht ▸ hv', hclosed⟩
      · rintro ⟨ht, hclosed⟩
        exact ⟨IsPiecewise.behindAll_unique hv' ht ▸ hv, hclosed⟩

/-! ## Offsets -/

/-- From the offset behind `front` on, white space and comments end as pieces of a kind have it: at the
offset in front of what follows them, or with a failure, and that exactly at a comment that is never
closed. -/
structure EndsAlong (Piece : List Char → List Char → Prop) (front s : List Char) : Prop where
  /-- where they end -/
  ends (n : Nat) : triviaEnd (String.ofList (front ++ s)) (byteLength front) = .ok n ↔
    ∃ w t, s = w ++ t ∧ EndsAt Piece s t ∧ n = byteLength (front ++ w)
  /-- when they do not -/
  fails : (∃ e, triviaEnd (String.ofList (front ++ s)) (byteLength front) = .error e) ↔
    ∃ t, BehindAll Piece s t ∧ Unclosed t

theorem triviaEnd_behind (front s : List Char) :
    triviaEnd (String.ofList (front ++ s)) (byteLength front) = match skipTrivia s with
      | .ok rest => .ok (byteLength (front ++ s) - byteLength rest)
      | .error stop => .error (stop.at (front ++ s)) := by
  have hrest : (dropBytes? (byteLength front) (front ++ s)).getD [] = s := by
    rw [Template.dropBytes?_append, Option.getD_some]
  rcases h : skipTrivia s with stop | rest
  · simp only [triviaEnd, String.toList_ofList, hrest, h]
  · simp only [triviaEnd, String.toList_ofList, hrest, h]

theorem endsAlong_readFiller (front s : List Char) : EndsAlong ReadFiller front s where
  ends n := by
    rw [triviaEnd_behind]
    constructor
    · intro h
      split at h
      · next t hok =>
        cases h
        have hends := skipTrivia_eq_ok_iff.1 hok
        obtain ⟨w, rfl⟩ := isPiecewise_readFiller.suffix_of_run hends.1.1
        exact ⟨w, t, rfl, hends, by simp [← Nat.add_assoc]⟩
      · cases h
    · rintro ⟨w, t, rfl, hends, rfl⟩
      rw [skipTrivia_eq_ok_iff.2 hends]
      simp [← Nat.add_assoc]
  fails := by
    rw [triviaEnd_behind]
    constructor
    · rintro ⟨e, h⟩
      split at h
      · cases h
      · next stop hstop =>
        obtain ⟨t, ht, hopen, -⟩ := skipTrivia_eq_error_iff.1 hstop
        exact ⟨t, ht, hopen⟩
    · rintro ⟨t, ht, hopen⟩
      rw [skipTrivia_eq_error_iff.2 ⟨t, ht, hopen, rfl⟩]
      exact ⟨_, rfl⟩

/-- They fail to end exactly if there is no end. -/
theorem exists_unclosed_iff {Piece : List Char → List Char → Prop} (hpiece : IsPiecewise Piece) :
    (∃ t, BehindAll Piece s t ∧ Unclosed t) ↔ ∀ t, ¬ EndsAt Piece s t := by
  constructor
  · rintro ⟨t, ht, hopen⟩ u ⟨hu, hclosed⟩
    exact hclosed (IsPiecewise.behindAll_unique ht hu ▸ hopen)
  · intro h
    obtain ⟨t, ht⟩ := hpiece.exists_behindAll s
    exact ⟨t, ht, by_contra fun hclosed => h t ⟨ht, hclosed⟩⟩

/-- Behind two beginnings of a text that are equally long stands the same. -/
theorem eq_behind_of_byteLength {w w' t' : List Char} (h : w ++ t = w' ++ t')
    (hlength : byteLength w = byteLength w') : t = t' := by
  have hdrop := Template.dropBytes?_append w t
  rw [h, hlength, Template.dropBytes?_append] at hdrop
  exact (Option.some.inj hdrop).symm

/-- An offset tells the end, so pieces that end at the same offsets end in the same places. -/
theorem EndsAlong.endsAt {Piece Other : List Char → List Char → Prop} {front : List Char}
    (hpiece : IsPiecewise Piece) (h : EndsAlong Piece front s) (hother : EndsAlong Other front s)
    (ht : EndsAt Piece s t) : EndsAt Other s t := by
  obtain ⟨w, hw⟩ := hpiece.suffix_of_run ht.1.1
  obtain ⟨w', t', hw', ht', hlength⟩ := (hother.ends _).1 ((h.ends _).2 ⟨w, t, hw.symm, ht, rfl⟩)
  rw [byteLength_append, byteLength_append] at hlength
  rwa [eq_behind_of_byteLength (hw.trans hw') (by omega)]

theorem endsAlong_filler_iff (front s : List Char) : EndsAlong Filler front s ↔ Agrees s := by
  have hread := endsAlong_readFiller front s
  constructor
  · intro h t
    exact ⟨hread.endsAt isPiecewise_readFiller h, h.endsAt isPiecewise_filler hread⟩
  · intro h
    refine ⟨fun n => ?_, ?_⟩
    · rw [hread.ends]
      simp only [h _]
    · rw [hread.fails, exists_unclosed_iff isPiecewise_readFiller,
        exists_unclosed_iff isPiecewise_filler]
      simp only [h _]

/-- **Where white space and comments end.** From every offset in a text on, they end along the pieces
that are read, of which `/*/` is one. They end as they are meant to exactly if what is read behind the
first `/*/` that is met, if there is one, ends in the same place as the whole is meant to. -/
theorem triviaEnd_iff (front s : List Char) : EndsAlong ReadFiller front s ∧
    (EndsAlong Filler front s ↔
      ∀ u, ReflTransGen PlainFiller s ('/' :: '*' :: '/' :: u) →
        ∀ t, EndsAt ReadFiller u t ↔ EndsAt Filler s t) := by
  rw [endsAlong_filler_iff, agrees_iff]
  exact ⟨endsAlong_readFiller front s, Iff.rfl⟩

/-- The text `/*/ */` is one comment, but it is read up to its third character and the blank. -/
theorem triviaEnd_short : ¬ ∀ front s, EndsAlong Filler front s := by
  intro h
  have hcomment : EndsAt Filler "/*/ */".toList [] := by
    refine ⟨isPiecewise_filler.behindAll_iff.2 ⟨.single ?_, ?_⟩, ?_⟩
    · have hinside : ¬ ['*', '/'] <:+: ['/', ' '] ++ ['*'] := by decide
      exact .block hinside
    · rintro u hu
      cases hu
    · rintro ⟨t, ht, -⟩
      cases ht
  have hend : triviaEnd "/*/ */" 0 = .ok 6 :=
    ((h [] "/*/ */".toList).ends 6).2 ⟨"/*/ */".toList, [], rfl, hcomment, rfl⟩
  revert hend
  decide +kernel

end Literal

end StaticSite
