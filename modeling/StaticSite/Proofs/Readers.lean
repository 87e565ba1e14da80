import StaticSite.Proofs.Grammar

/-!
# What the readers of literals do

A reader gives a value and a rest, or stops. This module says of every reader what it gives, in
terms of the tokens of the grammar and of the readers that it calls: a reader of tokens takes a
token, the reader of values what follows from the first character behind a gap, and the readers of
listings an element and what stands behind it. After this no reader needs to be opened.
-/

namespace StaticSite.Literal

open Text

/-! ## Readers by what they give -/

section

variable {α β : Type} {s r : List Char}

/-- A reader succeeds with a value and a rest. -/
def Gives (x : Except Stop (Taken α s)) (v : α) (r : List Char) : Prop :=
  ∃ a, x = .ok a ∧ a.value = v ∧ a.rest = r

theorem gives_ok {v v' : α} {r' : List Char} {h : r'.length < s.length} :
    Gives (.ok ⟨v', r', h⟩ : Except Stop (Taken α s)) v r ↔ v' = v ∧ r' = r := by
  constructor
  · rintro ⟨a, ha, hv, hr⟩
    cases ha
    exact ⟨hv, hr⟩
  · rintro ⟨hv, hr⟩
    exact ⟨_, rfl, hv, hr⟩

theorem not_gives_error {v : α} {stop : Stop} :
    ¬ Gives (.error stop : Except Stop (Taken α s)) v r := by
  rintro ⟨a, ha, -⟩
  cases ha

theorem gives_bind {x : Except Stop α} {f : α → Except Stop (Taken β s)} {v : β} :
    Gives (x >>= f) v r ↔ ∃ a, x = .ok a ∧ Gives (f a) v r := by
  constructor
  · rintro ⟨b, hb, hv, hr⟩
    obtain ⟨a, ha, hfa⟩ := bind_eq_ok hb
    exact ⟨a, ha, b, hfa, hv, hr⟩
  · rintro ⟨a, rfl, h⟩
    exact h

theorem Gives.length_lt {x : Except Stop (Taken α s)} {v : α} (h : Gives x v r) :
    r.length < s.length := by
  obtain ⟨a, -, -, rfl⟩ := h
  exact a.shorter

theorem skip_eq_ok {t : { t : List Char // t.length ≤ s.length }} :
    skip s = .ok t ↔ skipTrivia s = .ok t.val := by
  rw [skip]
  split
  · next h => simp [h]
  · next u h =>
    constructor
    · intro ht
      cases ht
      exact h
    · intro ht
      cases h.symm.trans ht
      rfl

end

/-! ## Tokens -/

section

variable {c : Char} {s r word : List Char}

theorem ofChar?_eq_some {d : Delimiter} : Delimiter.ofChar? c = some d ↔ c = d.char := by
  constructor
  · intro h
    rw [Delimiter.ofChar?] at h
    split at h
    · next hc => cases h; exact hc
    · split at h
      · next hc => cases h; exact hc
      · split at h
        · next hc => cases h; exact hc
        · cases h
  · rintro rfl
    cases d <;> rfl

theorem not_isDigit_of_isAlpha (h : c.isAlpha = true) : c.isDigit = false := by
  unfold Char.isAlpha Char.isUpper Char.isLower at h
  simp only [Char.isDigit, Bool.or_eq_true, Bool.and_eq_true, decide_eq_true_eq,
    Bool.and_eq_false_iff, decide_eq_false_iff_not, UInt32.le_iff_toNat_le, ge_iff_le] at h ⊢
  have hA : 'A'.val.toNat = 65 := rfl
  have ha : 'a'.val.toNat = 97 := rfl
  have hnine : '9'.val.toNat = 57 := rfl
  omega

/-- A word starts with anything that can be in it, but for a digit. -/
theorem isWordStart_iff : isWordStart c = true ↔ isWordPart c = true ∧ c.isDigit = false := by
  constructor
  · intro h
    refine ⟨isWordPart_of_isWordStart h, ?_⟩
    simp only [isWordStart, Bool.or_eq_true, decide_eq_true_eq] at h
    obtain (h | rfl) | rfl := h
    · exact not_isDigit_of_isAlpha h
    · decide
    · decide
  · rintro ⟨h, hdigit⟩
    simp only [isWordPart, isWordStart, Char.isAlphanum, Bool.or_eq_true] at h ⊢
    simpa [hdigit] using h

theorem not_isNumberStart_of_isWordStart (h : isWordStart c = true) : isNumberStart c = false := by
  rw [Bool.eq_false_iff]
  intro hnumber
  simp only [isNumberStart, Bool.or_eq_true, decide_eq_true_eq] at hnumber
  obtain ((rfl | rfl) | rfl) | hdigit := hnumber
  · revert h; decide
  · revert h; decide
  · revert h; decide
  · rw [(isWordStart_iff.1 h).2] at hdigit
    cases hdigit

/-- Neither words nor numbers start with a delimiter. -/
theorem ofChar?_eq_none (h : isWordStart c = true ∨ isNumberStart c = true) :
    Delimiter.ofChar? c = none := by
  rcases hd : Delimiter.ofChar? c with _ | d
  · rfl
  · rw [ofChar?_eq_some] at hd
    subst hd
    revert h
    cases d <;> decide

theorem Word.head (h : Word s word r) : ∃ c t, s = c :: t ∧ isWordStart c = true := by
  obtain ⟨rfl, ⟨c, hc, hdigit⟩, hinside, -⟩ := h
  obtain ⟨w, rfl⟩ := List.head?_eq_some_iff.1 hc
  exact ⟨c, w ++ r, rfl, isWordStart_iff.2 ⟨hinside c List.mem_cons_self, hdigit⟩⟩

/-- A word is what stands in front of the first character that no word has. -/
theorem Word.eq (h : Word s word r) :
    word = s.takeWhile isWordPart ∧ r = s.dropWhile isWordPart := by
  obtain ⟨rfl, -, hinside, hlongest⟩ := h
  have hr : r.takeWhile isWordPart = [] ∧ r.dropWhile isWordPart = r := by
    rcases r with _ | ⟨c, r⟩
    · exact ⟨rfl, rfl⟩
    · simp [hlongest c rfl]
  rw [List.takeWhile_append_of_pos hinside, List.dropWhile_append_of_pos hinside, hr.1, hr.2]
  simp

theorem word_of_isWordStart (h : isWordStart c = true) (t : List Char) :
    Word (c :: t) ((c :: t).takeWhile isWordPart) ((c :: t).dropWhile isWordPart) := by
  obtain ⟨hpart, hdigit⟩ := isWordStart_iff.1 h
  refine ⟨List.takeWhile_append_dropWhile.symm, ⟨c, by simp [hpart], hdigit⟩, ?_, ?_⟩
  · intro d hd
    exact List.mem_takeWhile_imp hd
  · intro d hd
    have hnot := List.head?_dropWhile_not isWordPart (c :: t)
    rw [hd] at hnot
    exact hnot

theorem wordValue?_eq_some {v : Data} (h : wordValue? word = some v) (hword : Word s word r) :
    Scalar s v r := by
  rw [wordValue?] at h
  split at h
  · next heq =>
    cases h
    exact .bool (heq ▸ hword)
  · split at h
    · next heq =>
      cases h
      exact .bool (heq ▸ hword)
    · split at h
      · next heq =>
        cases h
        obtain heq | heq := heq
        · exact .null (heq ▸ hword)
        · exact .undefined (heq ▸ hword)
      · cases h

/-! ### Values and keys that are tokens -/

theorem gives_readScalar_text {d : Delimiter} {t content : List Char}
    (h : readText d t = .ok (content, r)) :
    Gives (readScalar (d.char :: t)) (.text (String.ofList content)) r := by
  unfold readScalar
  dsimp only
  split
  · next d' hd =>
    obtain rfl : d = d' := Option.some.inj ((ofChar?_eq_some.2 rfl).symm.trans hd)
    split
    · next h' => cases h.symm.trans h'
    · next h' =>
      cases h.symm.trans h'
      exact gives_ok.2 ⟨rfl, rfl⟩
  · next hd => cases (ofChar?_eq_some.2 rfl).symm.trans hd

theorem gives_readScalar_number {n : Number} {t : List Char} (hc : isNumberStart c = true)
    (h : readNumber (c :: t) = .ok (n, r)) : Gives (readScalar (c :: t)) (.number n) r := by
  unfold readScalar
  dsimp only
  split
  · next hd => cases (ofChar?_eq_none (.inr hc)).symm.trans hd
  · rw [if_pos hc]
    split
    · next h' => cases h.symm.trans h'
    · next h' =>
      cases h.symm.trans h'
      exact gives_ok.2 ⟨rfl, rfl⟩

theorem gives_readScalar_word {v : Data} {t : List Char} (hword : Word (c :: t) word r)
    (h : wordValue? word = some v) : Gives (readScalar (c :: t)) v r := by
  obtain ⟨hw, hr⟩ := hword.eq
  obtain ⟨c', t', heq, hc⟩ := hword.head
  cases heq
  unfold readScalar
  dsimp only
  split
  · next hd => cases (ofChar?_eq_none (.inl hc)).symm.trans hd
  · rw [if_neg (by simp [not_isNumberStart_of_isWordStart hc]), dif_pos hc]
    split
    · next h' =>
      rw [← hw, h] at h'
      cases h'
      exact gives_ok.2 ⟨rfl, hr.symm⟩
    · next h' =>
      rw [← hw, h] at h'
      cases h'

/-- The reader of tokens takes the tokens of the grammar. -/
theorem readScalar_iff {v : Data} : Gives (readScalar s) v r ↔ Scalar s v r := by
  constructor
  · intro h
    unfold readScalar at h
    split at h
    · exact absurd h not_gives_error
    · next c t =>
      split at h
      · next d hd =>
        obtain rfl := ofChar?_eq_some.1 hd
        split at h
        · exact absurd h not_gives_error
        · next htext =>
          obtain ⟨rfl, rfl⟩ := gives_ok.1 h
          exact .text ⟨t, rfl, htext⟩
      · split at h
        · next hc =>
          split at h
          · exact absurd h not_gives_error
          · next hnumber =>
            obtain ⟨rfl, rfl⟩ := gives_ok.1 h
            exact .number ⟨⟨c, rfl, hc⟩, hnumber⟩
        · split at h
          · next hc =>
            split at h
            · next hvalue =>
              obtain ⟨rfl, rfl⟩ := gives_ok.1 h
              exact wordValue?_eq_some hvalue (word_of_isWordStart hc t)
            · exact absurd h not_gives_error
          · exact absurd h not_gives_error
  · intro h
    cases h with
    | text quoted =>
      obtain ⟨t, rfl, htext⟩ := quoted
      exact gives_readScalar_text htext
    | number numeral =>
      obtain ⟨⟨c, hhead, hc⟩, hread⟩ := numeral
      obtain ⟨t, rfl⟩ := List.head?_eq_some_iff.1 hhead
      exact gives_readScalar_number hc hread
    | @bool _ _ b word =>
      obtain ⟨c, t, rfl, -⟩ := word.head
      exact gives_readScalar_word word (by cases b <;> rfl)
    | null word =>
      obtain ⟨c, t, rfl, -⟩ := word.head
      exact gives_readScalar_word word rfl
    | undefined word =>
      obtain ⟨c, t, rfl, -⟩ := word.head
      exact gives_readScalar_word word rfl

theorem stringOf?_eq_some {d : Delimiter} :
    (Delimiter.ofChar? c).filter (· ≠ .backtick) = some d ↔ c = d.char ∧ d ≠ .backtick := by
  rw [Option.filter_eq_some_iff, ofChar?_eq_some, decide_eq_true_eq]

theorem stringOf?_eq_none (h : isWordStart c = true ∨ isNumberStart c = true) :
    (Delimiter.ofChar? c).filter (· ≠ .backtick) = none := by
  rw [ofChar?_eq_none h]
  rfl

theorem gives_readKey_text {d : Delimiter} {t content : List Char} (hd : d ≠ .backtick)
    (h : readText d t = .ok (content, r)) : Gives (readKey (d.char :: t)) content r := by
  unfold readKey
  dsimp only
  split
  · next d' hd' =>
    obtain rfl : d = d' := Option.some.inj ((stringOf?_eq_some.2 ⟨rfl, hd⟩).symm.trans hd')
    split
    · next h' => cases h.symm.trans h'
    · next h' =>
      cases h.symm.trans h'
      exact gives_ok.2 ⟨rfl, rfl⟩
  · next hd' => cases (stringOf?_eq_some.2 ⟨rfl, hd⟩).symm.trans hd'

theorem gives_readKey_number {n : Number} {t : List Char} (hc : c.isDigit = true)
    (h : readNumber (c :: t) = .ok (n, r)) : Gives (readKey (c :: t)) n.text r := by
  have hstart : isNumberStart c = true := by simp [isNumberStart, hc]
  unfold readKey
  dsimp only
  split
  · next hd => cases (stringOf?_eq_none (.inr hstart)).symm.trans hd
  · rw [if_pos hc]
    split
    · next h' => cases h.symm.trans h'
    · next h' =>
      cases h.symm.trans h'
      exact gives_ok.2 ⟨rfl, rfl⟩

theorem gives_readKey_word {t : List Char} (hword : Word (c :: t) word r) :
    Gives (readKey (c :: t)) word r := by
  obtain ⟨hw, hr⟩ := hword.eq
  obtain ⟨c', t', heq, hc⟩ := hword.head
  cases heq
  unfold readKey
  dsimp only
  split
  · next hd => cases (stringOf?_eq_none (.inl hc)).symm.trans hd
  · rw [if_neg (by simp [(isWordStart_iff.1 hc).2]), dif_pos hc]
    exact gives_ok.2 ⟨hw.symm, hr.symm⟩

/-- The reader of keys takes the keys of the grammar. -/
theorem readKey_iff {key : List Char} : Gives (readKey s) key r ↔ Key s key r := by
  constructor
  · intro h
    unfold readKey at h
    split at h
    · exact absurd h not_gives_error
    · next c t =>
      split at h
      · next d hd =>
        obtain ⟨rfl, hstring⟩ := stringOf?_eq_some.1 hd
        split at h
        · exact absurd h not_gives_error
        · next htext =>
          obtain ⟨rfl, rfl⟩ := gives_ok.1 h
          exact .text hstring ⟨t, rfl, htext⟩
      · split at h
        · next hc =>
          split at h
          · exact absurd h not_gives_error
          · next hnumber =>
            obtain ⟨rfl, rfl⟩ := gives_ok.1 h
            exact .number ⟨c, rfl, hc⟩ ⟨⟨c, rfl, by simp [isNumberStart, hc]⟩, hnumber⟩
        · split at h
          · next hc =>
            obtain ⟨rfl, rfl⟩ := gives_ok.1 h
            exact .word (word_of_isWordStart hc t)
          · split at h
            · exact absurd h not_gives_error
            · split at h <;> exact absurd h not_gives_error
  · intro h
    cases h with
    | text string quoted =>
      obtain ⟨t, rfl, htext⟩ := quoted
      exact gives_readKey_text string htext
    | word isWord =>
      obtain ⟨c, t, rfl, -⟩ := isWord.head
      exact gives_readKey_word isWord
    | number digit numeral =>
      obtain ⟨c, hhead, hc⟩ := digit
      obtain ⟨t, rfl⟩ := List.head?_eq_some_iff.1 hhead
      exact gives_readKey_number hc numeral.read

theorem gives_readColon {key : List Char} : Gives (readColon key s) () r ↔ s = ':' :: r := by
  constructor
  · intro h
    unfold readColon at h
    split at h
    · rw [(gives_ok.1 h).2]
    all_goals exact absurd h not_gives_error
  · rintro rfl
    exact gives_ok.2 ⟨rfl, rfl⟩

end

/-! ## Elements and listings -/

/-- A character that a token can start with. -/
def startsToken (c : Char) : Bool :=
  (Delimiter.ofChar? c).isSome || isNumberStart c || isWordStart c

section

variable {s r : List Char}

theorem Quoted.startsToken {d : Delimiter} {content : List Char} (h : Quoted d s content r) :
    ∃ c, s.head? = some c ∧ startsToken c = true := by
  obtain ⟨t, rfl, -⟩ := h
  refine ⟨d.char, rfl, ?_⟩
  cases d <;> decide

theorem Word.startsToken {word : List Char} (h : Word s word r) :
    ∃ c, s.head? = some c ∧ startsToken c = true := by
  obtain ⟨c, t, rfl, hc⟩ := h.head
  exact ⟨c, rfl, by simp [Literal.startsToken, hc]⟩

theorem Numeral.startsToken {n : Number} (h : Numeral s n r) :
    ∃ c, s.head? = some c ∧ startsToken c = true := by
  obtain ⟨c, hhead, hc⟩ := h.start
  exact ⟨c, hhead, by simp [Literal.startsToken, hc]⟩

theorem Scalar.startsToken {v : Data} (h : Scalar s v r) :
    ∃ c, s.head? = some c ∧ startsToken c = true := by
  cases h with
  | text quoted => exact quoted.startsToken
  | number numeral => exact numeral.startsToken
  | bool word => exact word.startsToken
  | null word => exact word.startsToken
  | undefined word => exact word.startsToken

theorem Key.startsToken {key : List Char} (h : Key s key r) :
    ∃ c, s.head? = some c ∧ startsToken c = true := by
  cases h with
  | text string quoted => exact quoted.startsToken
  | word isWord => exact isWord.startsToken
  | number digit numeral => exact numeral.startsToken

/-- Where a token starts, no other character stands. -/
theorem head?_ne_of_startsToken {c : Char} (h : ∃ c, s.head? = some c ∧ startsToken c = true)
    (hc : startsToken c = false) : s.head? ≠ some c := by
  obtain ⟨d, hd, htoken⟩ := h
  rw [hd, Ne, Option.some_inj]
  rintro rfl
  rw [hc] at htoken
  cases htoken

theorem eq_cons_tail {c : Char} {t : List Char} (h : t.head? = some c) : t = c :: t.tail := by
  cases t with
  | nil => cases h
  | cons d t => simpa using h

/-- What the reader of values does. -/
theorem readValue_iff {v : Data} : Gives (readValue s) v r ↔
    ∃ t, skipTrivia s = .ok t ∧
      (Scalar t v r ∨
        (∃ u vs, t = '[' :: u ∧ Gives (readItems u) vs r ∧ v = .list vs) ∨
        ∃ u ms, t = '\x7b' :: u ∧ Gives (readMembers u) ms r ∧ v = .object (Dict.ofList ms)) := by
  rw [readValue, gives_bind]
  constructor
  · rintro ⟨t, ht, h⟩
    refine ⟨t.val, skip_eq_ok.1 ht, ?_⟩
    split at h
    · next hhead =>
      obtain ⟨members, hmembers, h⟩ := gives_bind.1 h
      obtain ⟨rfl, rfl⟩ := gives_ok.1 h
      exact .inr (.inr ⟨_, _, eq_cons_tail hhead, ⟨members, hmembers, rfl, rfl⟩, rfl⟩)
    · split at h
      · next hhead =>
        obtain ⟨items, hitems, h⟩ := gives_bind.1 h
        obtain ⟨rfl, rfl⟩ := gives_ok.1 h
        exact .inr (.inl ⟨_, _, eq_cons_tail hhead, ⟨items, hitems, rfl, rfl⟩, rfl⟩)
      · obtain ⟨scalar, hscalar, h⟩ := gives_bind.1 h
        obtain ⟨rfl, rfl⟩ := gives_ok.1 h
        exact .inl (readScalar_iff.1 ⟨scalar, hscalar, rfl, rfl⟩)
  · rintro ⟨t, ht, h⟩
    refine ⟨⟨t, length_of_skipTrivia ht⟩, skip_eq_ok.2 ht, ?_⟩
    obtain h | ⟨u, vs, rfl, ⟨items, hitems, rfl, rfl⟩, rfl⟩ |
      ⟨u, ms, rfl, ⟨members, hmembers, rfl, rfl⟩, rfl⟩ := h
    · rw [dif_neg (head?_ne_of_startsToken h.startsToken rfl),
        dif_neg (head?_ne_of_startsToken h.startsToken rfl)]
      obtain ⟨scalar, hscalar, rfl, rfl⟩ := readScalar_iff.2 h
      exact gives_bind.2 ⟨scalar, hscalar, gives_ok.2 ⟨rfl, rfl⟩⟩
    · rw [dif_neg (by simp)]
      split
      · exact gives_bind.2 ⟨items, hitems, gives_ok.2 ⟨rfl, rfl⟩⟩
      · next hhead => exact absurd rfl hhead
    · split
      · exact gives_bind.2 ⟨members, hmembers, gives_ok.2 ⟨rfl, rfl⟩⟩
      · next hhead => exact absurd rfl hhead

/-- A value can be read from behind the gap in front of it. -/
theorem readValue_congr {v : Data} {t : List Char} (h : skipTrivia s = .ok t) :
    Gives (readValue t) v r ↔ Gives (readValue s) v r := by
  rw [readValue_iff, readValue_iff, h, skipTrivia_self h]

/-- Two points make no decimal, -/
theorem decimal?_of_points (t : List Char) : decimal? ('.' :: '.' :: t) = none := by
  have hpoint : Char.isDigit '.' = false := by decide
  simp only [decimal?, List.takeWhile_cons, List.dropWhile_cons, hpoint]
  rfl

/-- and so no number starts with them. -/
theorem readNumber_of_points {n : Number} {t : List Char} :
    readNumber ('.' :: '.' :: t) ≠ .ok (n, r) := by
  intro h
  have hsign : readSign ('.' :: '.' :: t) = (false, '.' :: '.' :: t) := rfl
  have hbase : readBase ('.' :: '.' :: t) = none := rfl
  have hrun : decimalRun none ('.' :: '.' :: t) =
    ('.' :: '.' :: (decimalRun (some '.') t).1, (decimalRun (some '.') t).2) := rfl
  have hvalue (run : List Char) : runValue? false ('.' :: '.' :: run) = none := by
    have htext : dropUnderscores ('.' :: '.' :: run) = '.' :: '.' :: dropUnderscores run := rfl
    rw [runValue?]
    simp only [htext, decimal?_of_points]
    rfl
  rw [readNumber] at h
  simp only [hsign, hbase, hrun, hvalue] at h
  cases h

/-- A value does not start with three points. -/
theorem Scalar.not_spread {v : Data} (h : Scalar s v r) :
    startsWith? ['.', '.', '.'] s = none := by
  rw [Option.eq_none_iff_forall_ne_some]
  intro t ht
  obtain rfl : s = '.' :: '.' :: '.' :: t := startsWith?_eq_some.1 ht
  cases h with
  | @text d _ _ _ quoted =>
    obtain ⟨u, hu, -⟩ := quoted
    cases d <;> cases hu
  | number numeral => exact readNumber_of_points numeral.read
  | bool word | null word | undefined word =>
    obtain ⟨c, u, hu, hc⟩ := word.head
    cases hu
    revert hc
    decide

/-- What stands behind the gap in front of a value. -/
theorem start_of_readValue {v : Data} (h : Gives (readValue s) v r) :
    ∃ t, skipTrivia s = .ok t ∧ t.head? ≠ some ']' ∧ startsWith? ['.', '.', '.'] t = none ∧
      t ≠ [] := by
  obtain ⟨t, ht, h⟩ := readValue_iff.1 h
  refine ⟨t, ht, ?_⟩
  obtain h | ⟨u, vs, rfl, -⟩ | ⟨u, ms, rfl, -⟩ := h
  · refine ⟨head?_ne_of_startsToken h.startsToken rfl, h.not_spread, ?_⟩
    rintro rfl
    obtain ⟨c, hc, -⟩ := h.startsToken
    cases hc
  · exact ⟨by simp, rfl, by simp⟩
  · exact ⟨by simp, rfl, by simp⟩

/-- What follows an element of a listing: the end, or a comma and what could be a listing. -/
def GivesMore {α : Type} (close : Char) (read : (t : List Char) → Except Stop (Taken (List α) t))
    (s : List Char) (ms : List α) (r : List Char) : Prop :=
  (skipTrivia s = .ok (close :: r) ∧ ms = []) ∨
    ∃ t, skipTrivia s = .ok (',' :: t) ∧ Gives (read t) ms r

/-- What the readers of listings do behind an element: a comma leads to the next one, and what
closes the listing ends it. -/
theorem gives_behind {α : Type} {read : (t : List Char) → Except Stop (Taken (List α) t)}
    {close : Char} {t u : List Char} {m : α} {ms : List α} {stop : Stop} (hclose : close ≠ ',')
    (ht : skipTrivia t = .ok u) (hu : u.length ≤ s.length) :
    Gives (if h : u.head? = some ',' then
        (read u.tail).bind fun more =>
          .ok ⟨m :: more.value, more.rest, Nat.lt_trans more.shorter (length_tail_lt h hu)⟩
      else if h : u.head? = some close then .ok ⟨[m], u.tail, length_tail_lt h hu⟩
      else .error stop : Except Stop (Taken (List α) s)) ms r ↔
    ∃ ms', GivesMore close read t ms' r ∧ ms = m :: ms' := by
  constructor
  · intro h
    split at h
    · next hhead =>
      obtain ⟨more, hmore, h⟩ := gives_bind.1 h
      obtain ⟨rfl, rfl⟩ := gives_ok.1 h
      exact ⟨_, .inr ⟨_, ht.trans (congrArg _ (eq_cons_tail hhead)), more, hmore, rfl, rfl⟩, rfl⟩
    · split at h
      · next hhead =>
        obtain ⟨rfl, rfl⟩ := gives_ok.1 h
        exact ⟨_, .inl ⟨ht.trans (congrArg _ (eq_cons_tail hhead)), rfl⟩, rfl⟩
      · exact absurd h not_gives_error
  · rintro ⟨ms', ⟨h, rfl⟩ | ⟨w, h, more, hmore, rfl, rfl⟩, rfl⟩
    · obtain rfl := Except.ok.inj (ht.symm.trans h)
      rw [dif_neg (by simpa using hclose)]
      split
      · exact gives_ok.2 ⟨rfl, rfl⟩
      · next hhead => exact absurd rfl hhead
    · obtain rfl := Except.ok.inj (ht.symm.trans h)
      split
      · exact gives_bind.2 ⟨more, hmore, gives_ok.2 ⟨rfl, rfl⟩⟩
      · next hhead => exact absurd rfl hhead

theorem GivesMore.skips {α : Type} {read : (t : List Char) → Except Stop (Taken (List α) t)}
    {close : Char} {ms : List α} (h : GivesMore close read s ms r) : ∃ t, skipTrivia s = .ok t := by
  obtain ⟨h, -⟩ | ⟨t, h, -⟩ := h
  · exact ⟨_, h⟩
  · exact ⟨_, h⟩

/-- What the reader of items does. -/
theorem readItems_iff {vs : List Data} : Gives (readItems s) vs r ↔
    (skipTrivia s = .ok (']' :: r) ∧ vs = []) ∨
      ∃ v t, Gives (readValue s) v t ∧
        ∃ vs', GivesMore ']' readItems t vs' r ∧ vs = v :: vs' := by
  rw [readItems, gives_bind]
  constructor
  · rintro ⟨t, ht, h⟩
    rw [skip_eq_ok] at ht
    split at h
    · next hhead =>
      obtain ⟨rfl, rfl⟩ := gives_ok.1 h
      exact .inl ⟨ht.trans (congrArg _ (eq_cons_tail hhead)), rfl⟩
    · split at h
      · exact absurd h not_gives_error
      · split at h
        · exact absurd h not_gives_error
        · obtain ⟨value, hvalue, h⟩ := gives_bind.1 h
          obtain ⟨u, hu, h⟩ := gives_bind.1 h
          have hlength := Nat.le_trans u.property
            (Nat.le_trans (Nat.le_of_lt value.shorter) t.property)
          exact .inr ⟨_, _, (readValue_congr ht).1 ⟨value, hvalue, rfl, rfl⟩,
            (gives_behind (by decide) (skip_eq_ok.1 hu) hlength).1 h⟩
  · rintro (⟨ht, rfl⟩ | ⟨v, t, hv, vs', hmore, rfl⟩)
    · refine ⟨⟨_, length_of_skipTrivia ht⟩, skip_eq_ok.2 ht, ?_⟩
      split
      · exact gives_ok.2 ⟨rfl, rfl⟩
      · next hhead => exact absurd rfl hhead
    · obtain ⟨x, hx, hclose, hspread, hne⟩ := start_of_readValue hv
      refine ⟨⟨x, length_of_skipTrivia hx⟩, skip_eq_ok.2 hx, ?_⟩
      rw [dif_neg hclose, if_neg (by simp [hspread]), if_neg (by simpa using hne)]
      obtain ⟨value, hvalue, rfl, rfl⟩ := (readValue_congr hx).2 hv
      obtain ⟨u, hu⟩ := hmore.skips
      have hlength : u.length ≤ s.length := Nat.le_trans (length_of_skipTrivia hu)
        (Nat.le_trans (Nat.le_of_lt value.shorter) (length_of_skipTrivia hx))
      refine gives_bind.2 ⟨value, hvalue, gives_bind.2 ⟨⟨u, length_of_skipTrivia hu⟩, ?_, ?_⟩⟩
      · exact skip_eq_ok.2 hu
      · exact (gives_behind (by decide) hu hlength).2 ⟨_, hmore, rfl⟩

/-- A member as its reader takes it: a key, a colon and a value. -/
def GivesMember (s : List Char) (m : String × Data) (r : List Char) : Prop :=
  ∃ t u w key v, skipTrivia s = .ok t ∧ Gives (readKey t) key u ∧ skipTrivia u = .ok (':' :: w) ∧
    Gives (readValue w) v r ∧ m = (String.ofList key, v)

/-- What the reader of members does. -/
theorem readMembers_iff {ms : List (String × Data)} : Gives (readMembers s) ms r ↔
    (skipTrivia s = .ok ('\x7d' :: r) ∧ ms = []) ∨
      ∃ m t, GivesMember s m t ∧
        ∃ ms', GivesMore '\x7d' readMembers t ms' r ∧ ms = m :: ms' := by
  rw [readMembers, gives_bind]
  constructor
  · rintro ⟨t, ht, h⟩
    rw [skip_eq_ok] at ht
    split at h
    · next hhead =>
      obtain ⟨rfl, rfl⟩ := gives_ok.1 h
      exact .inl ⟨ht.trans (congrArg _ (eq_cons_tail hhead)), rfl⟩
    · obtain ⟨key, hkey, h⟩ := gives_bind.1 h
      obtain ⟨u, hu, h⟩ := gives_bind.1 h
      obtain ⟨colon, hcolon, h⟩ := gives_bind.1 h
      obtain ⟨value, hvalue, h⟩ := gives_bind.1 h
      obtain ⟨v, hv, h⟩ := gives_bind.1 h
      have hmember : GivesMember s (String.ofList key.value, value.value) value.rest := by
        have hu' := gives_readColon.1 ⟨colon, hcolon, rfl, rfl⟩
        exact ⟨_, _, _, _, _, ht, ⟨key, hkey, rfl, rfl⟩, (skip_eq_ok.1 hu).trans (congrArg _ hu'),
          ⟨value, hvalue, rfl, rfl⟩, rfl⟩
      have hlength : v.val.length ≤ s.length := by
        have := t.property
        have := key.shorter
        have := u.property
        have := colon.shorter
        have := value.shorter
        have := v.property
        omega
      exact .inr ⟨_, _, hmember, (gives_behind (by decide) (skip_eq_ok.1 hv) hlength).1 h⟩
  · rintro (⟨ht, rfl⟩ | ⟨m, t, hm, ms', hmore, rfl⟩)
    · refine ⟨⟨_, length_of_skipTrivia ht⟩, skip_eq_ok.2 ht, ?_⟩
      split
      · exact gives_ok.2 ⟨rfl, rfl⟩
      · next hhead => exact absurd rfl hhead
    · obtain ⟨x, y, z, key, v, hx, hkey, hy, hv, rfl⟩ := hm
      have hclose := head?_ne_of_startsToken (readKey_iff.1 hkey).startsToken (c := '\x7d') rfl
      obtain ⟨taken, htaken, rfl, rfl⟩ := hkey
      have hmark : Gives (readColon taken.value (':' :: z)) () z := gives_readColon.2 rfl
      obtain ⟨colon, hcolon, -, hz⟩ := hmark
      obtain ⟨value, hvalue, rfl, rfl⟩ := hz ▸ hv
      obtain ⟨u, hu⟩ := hmore.skips
      have hlength : u.length ≤ s.length := by
        have := length_of_skipTrivia hx
        have := taken.shorter
        have := length_of_skipTrivia hy
        have := colon.shorter
        have := value.shorter
        have := length_of_skipTrivia hu
        omega
      refine ⟨⟨x, length_of_skipTrivia hx⟩, skip_eq_ok.2 hx, ?_⟩
      rw [dif_neg hclose]
      refine gives_bind.2 ⟨taken, htaken, gives_bind.2 ⟨⟨_, length_of_skipTrivia hy⟩, ?_, ?_⟩⟩
      · exact skip_eq_ok.2 hy
      refine gives_bind.2 ⟨colon, hcolon, gives_bind.2 ⟨value, hvalue, ?_⟩⟩
      refine gives_bind.2 ⟨⟨u, length_of_skipTrivia hu⟩, skip_eq_ok.2 hu, ?_⟩
      exact (gives_behind (by decide) hu hlength).2 ⟨_, hmore, rfl⟩

end

end StaticSite.Literal
