import StaticSite.Literal.Reader

/-!
# What a reader leaves

A reader takes characters off the front of its text and does nothing else with it. So what it leaves
is an end of that text, and what was still unread when it met a fault is one too. `Leaves` says both
at once, and `Leaves.bind` carries it through readers that follow one another; there is one lemma
for each reader, and `leaves_value?` for the reading of a literal as a whole.
-/

namespace StaticSite.Literal

open Text

variable {α β : Type} {s t : List Char}

/-- What is left in the end, or was unread when a fault was met, is an end of the text. -/
def Leaves (rest : α → List Char) (x : Except Stop α) (s : List Char) : Prop :=
  match x with
  | .ok a => rest a <:+ s
  | .error stop => stop.rest <:+ s

namespace Leaves

variable {rest : α → List Char} {rest' : β → List Char} {x : Except Stop α} {f : α → Except Stop β}

theorem trans (h : Leaves rest x t) (ht : t <:+ s) : Leaves rest x s := by
  cases x with
  | ok a => exact List.IsSuffix.trans h ht
  | error stop => exact List.IsSuffix.trans h ht

/-- What follows a reader starts with what that reader leaves. -/
theorem bind (hx : Leaves rest x s) (hf : ∀ a, Leaves rest' (f a) (rest a)) :
    Leaves rest' (x >>= f) s := by
  cases x with
  | ok a => exact (hf a).trans hx
  | error stop => exact hx

theorem of_ok {a : α} (h : Leaves rest x s) (hx : x = .ok a) : rest a <:+ s := by
  subst hx
  exact h

theorem of_error {stop : Stop} (h : Leaves rest x s) (hx : x = .error stop) : stop.rest <:+ s := by
  subst hx
  exact h

end Leaves

/-! ## White space and comments -/

theorem leaves_skipTrivia (s : List Char) : Leaves id (skipTrivia s) s := by
  fun_induction skipTrivia s with
  | case1 s t hs ih =>
    have hblank : '/' :: '/' :: t <:+ s := hs ▸ List.dropWhile_suffix _
    have hline : t.dropWhile (· ≠ '\n') <:+ '/' :: '/' :: t :=
      (List.dropWhile_suffix _).trans ((List.suffix_cons _ _).trans (List.suffix_cons _ _))
    exact ih.trans (hline.trans hblank)
  | case2 s t hs before rest hcut ih =>
    have hblank : '/' :: '*' :: t <:+ s := hs ▸ List.dropWhile_suffix _
    have hrest : rest <:+ '*' :: t := suffix_of_cut? hcut
    exact ih.trans (hrest.trans ((List.suffix_cons _ _).trans hblank))
  | case3 s t hs hcut => exact hs ▸ List.dropWhile_suffix _
  | case4 s => exact List.dropWhile_suffix _

theorem leaves_skip (s : List Char) : Leaves Subtype.val (skip s) s := by
  have h := leaves_skipTrivia s
  rw [skip]
  split
  · next hs => exact h.of_error hs
  · next hs => exact h.of_ok hs

/-! ## Texts -/

theorem leaves_charOf (code : Nat) (s : List Char) : Leaves Prod.snd (charOf code s) s := by
  rw [charOf]
  split <;> exact List.suffix_refl _

theorem leaves_readHex (count : Nat) (s : List Char) : Leaves Prod.snd (readHex count s) s := by
  rw [readHex]
  split
  · split
    · exact (leaves_charOf _ _).trans (List.drop_suffix _ _)
    · exact List.suffix_refl _
  · exact List.suffix_refl _

theorem leaves_readEscape (s : List Char) : Leaves Prod.snd (readEscape s) s := by
  unfold readEscape
  split
  case h_10 s => exact (leaves_readHex 2 s).trans (List.suffix_cons _ _)
  case h_12 s _ => exact (leaves_readHex 4 s).trans (List.suffix_cons _ _)
  case h_11 s =>
    have hs : s <:+ 'u' :: '\x7b' :: s := (List.suffix_cons _ _).trans (List.suffix_cons _ _)
    split
    · exact hs
    · next digits rest hcut =>
      have hrest : rest <:+ s := suffix_of_cut? hcut
      split
      · exact (leaves_charOf _ _).trans (hrest.trans hs)
      · exact hs
  case h_1 => exact List.suffix_refl _
  all_goals exact List.suffix_cons _ _

theorem leaves_readText (d : Delimiter) (s : List Char) : Leaves Prod.snd (readText d s) s := by
  fun_induction readText d s with
  | case1 => exact List.suffix_refl _
  | case2 => exact List.suffix_cons _ _
  | case3 t stop hstop =>
    exact ((leaves_readEscape t).of_error hstop).trans (List.suffix_cons _ _)
  | case4 t out rest hescape stop hstop _ ih =>
    have hrest := (leaves_readEscape t).of_ok hescape
    exact ((ih.of_error hstop).trans hrest).trans (List.suffix_cons _ _)
  | case5 t out rest hescape more r hmore _ ih =>
    have hrest := (leaves_readEscape t).of_ok hescape
    exact ((ih.of_ok hmore).trans hrest).trans (List.suffix_cons _ _)
  | case6 => exact List.suffix_cons _ _
  | case7 => exact List.suffix_refl _
  | case8 c t _ _ _ _ stop hstop ih => exact (ih.of_error hstop).trans (List.suffix_cons _ _)
  | case9 c t _ _ _ _ more r hmore ih => exact (ih.of_ok hmore).trans (List.suffix_cons _ _)

/-! ## Numbers -/

theorem readSign_suffix (s : List Char) : (readSign s).2 <:+ s := by
  unfold readSign
  split
  · exact List.suffix_cons _ _
  · exact List.suffix_cons _ _
  · exact List.suffix_refl _

theorem readBase_suffix {base : Nat} (h : readBase s = some (base, t)) : t <:+ s := by
  unfold readBase at h
  split at h
  case h_7 => cases h
  all_goals
    cases h
    exact (List.suffix_cons _ _).trans (List.suffix_cons _ _)

theorem leaves_readNumber (s : List Char) : Leaves Prod.snd (readNumber s) s := by
  have hs := readSign_suffix s
  rw [readNumber]
  dsimp only
  split
  · next base t hbase =>
    split
    · exact ((List.dropWhile_suffix _).trans (readBase_suffix hbase)).trans hs
    · exact List.suffix_refl _
  · split
    · exact List.IsSuffix.trans ⟨_, decimalRun_append none (readSign s).2⟩ hs
    · exact List.suffix_refl _

/-! ## Values -/

theorem leaves_readScalar (s : List Char) : Leaves Taken.rest (readScalar s) s := by
  unfold readScalar
  split
  · exact List.suffix_refl _
  · next c t =>
    split
    · next d hd =>
      have h := leaves_readText d t
      split
      · next hstop => exact (h.of_error hstop).trans (List.suffix_cons _ _)
      · next hok => exact (h.of_ok hok).trans (List.suffix_cons _ _)
    · have h := leaves_readNumber (c :: t)
      split
      · split
        · next hstop => exact h.of_error hstop
        · next hok => exact h.of_ok hok
      · split
        · split
          · exact List.dropWhile_suffix _
          · exact List.suffix_refl _
        · exact List.suffix_refl _

theorem leaves_readKey (s : List Char) : Leaves Taken.rest (readKey s) s := by
  unfold readKey
  split
  · exact List.suffix_refl _
  · next c t =>
    split
    · next d hd =>
      have h := leaves_readText d t
      split
      · next hstop => exact (h.of_error hstop).trans (List.suffix_cons _ _)
      · next hok => exact (h.of_ok hok).trans (List.suffix_cons _ _)
    · have h := leaves_readNumber (c :: t)
      split
      · split
        · next hstop => exact h.of_error hstop
        · next hok => exact h.of_ok hok
      · split
        · exact List.dropWhile_suffix _
        · split
          · exact List.suffix_refl _
          · split <;> exact List.suffix_refl _

theorem leaves_readColon (key s : List Char) : Leaves Taken.rest (readColon key s) s := by
  unfold readColon
  split
  · exact List.suffix_cons _ _
  all_goals exact List.suffix_refl _

mutual

theorem leaves_readValue (s : List Char) : Leaves Taken.rest (readValue s) s := by
  rw [readValue]
  refine (leaves_skip s).bind fun t => ?_
  split
  · next h =>
    have htail : t.val.tail <:+ t.val := List.tail_suffix _
    have hlt := length_tail_lt h t.property
    exact ((leaves_readMembers t.val.tail).trans htail).bind fun _ => List.suffix_refl _
  · split
    · next h =>
      have htail : t.val.tail <:+ t.val := List.tail_suffix _
      have hlt := length_tail_lt h t.property
      exact ((leaves_readItems t.val.tail).trans htail).bind fun _ => List.suffix_refl _
    · exact (leaves_readScalar t.val).bind fun _ => List.suffix_refl _
termination_by 2 * s.length
decreasing_by all_goals omega

theorem leaves_readMembers (s : List Char) : Leaves Taken.rest (readMembers s) s := by
  rw [readMembers]
  refine (leaves_skip s).bind fun t => ?_
  split
  · exact List.tail_suffix _
  · refine (leaves_readKey t.val).bind fun key => ?_
    refine (leaves_skip key.rest).bind fun u => ?_
    refine (leaves_readColon key.value u.val).bind fun colon => ?_
    have hcolon : colon.rest.length < s.length :=
      Nat.lt_of_lt_of_le colon.shorter
        (Nat.le_trans u.property (Nat.le_trans (Nat.le_of_lt key.shorter) t.property))
    refine (leaves_readValue colon.rest).bind fun value => ?_
    refine (leaves_skip value.rest).bind fun v => ?_
    split
    · next h =>
      have hlt := length_tail_lt h v.property
      have hvalue := value.shorter
      exact ((leaves_readMembers v.val.tail).trans (List.tail_suffix _)).bind fun _ =>
        List.suffix_refl _
    · split
      · exact List.tail_suffix _
      · exact List.suffix_refl _
termination_by 2 * s.length + 1
decreasing_by all_goals omega

theorem leaves_readItems (s : List Char) : Leaves Taken.rest (readItems s) s := by
  rw [readItems]
  refine (leaves_skip s).bind fun t => ?_
  split
  · exact List.tail_suffix _
  · split
    · exact List.suffix_refl _
    · split
      · exact List.nil_suffix
      · have ht := t.property
        refine (leaves_readValue t.val).bind fun value => ?_
        refine (leaves_skip value.rest).bind fun v => ?_
        split
        · next h =>
          have hlt := length_tail_lt h v.property
          have hvalue := value.shorter
          exact ((leaves_readItems v.val.tail).trans (List.tail_suffix _)).bind fun _ =>
            List.suffix_refl _
        · split
          · exact List.tail_suffix _
          · exact List.suffix_refl _
termination_by 2 * s.length + 1
decreasing_by all_goals omega

end

/-- **A literal leaves an end of its text**, and a fault in it lies in that text. -/
theorem leaves_value? (s : List Char) : Leaves Prod.snd (value? s) s := by
  have h := leaves_readValue s
  rw [value?]
  rcases hread : readValue s with stop | taken
  · exact h.of_error hread
  · exact h.of_ok hread

end StaticSite.Literal
