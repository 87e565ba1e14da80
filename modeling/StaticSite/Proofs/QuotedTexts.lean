import StaticSite.Proofs.Numerals

/-!
# Texts as they are written

Between its delimiters a text is written with characters that stand for themselves and with escapes.
`Writes` tells what is written for which text, for any kind of escapes. Behind a delimiter the reader
accepts what is written with escapes as it reads them, and gives the text up to the first delimiter
that is not escaped, with the offset behind it. These escapes are the ones that are meant (`Escape`),
and besides them a code point in braces with a plus sign in front (`SignedEscape`). So texts are read
as they are meant, unless a code point with a plus sign is met (`read_quoted`).
-/

namespace StaticSite.Literal

open Text

/-! ## What is written -/

/-- The escapes of one character behind the backslash, but for characters that stand for themselves. -/
def shortEscapes : List (Char × List Char) :=
  [('n', ['\n']), ('t', ['\t']), ('r', ['\r']), ('b', ['\x08']), ('f', ['\x0c']), ('v', ['\x0b']),
    ('0', ['\x00']), ('\n', [])]

/-- What stands in an escape behind the backslash, and the text that it stands for. -/
inductive Escape : List Char → List Char → Prop where
  /-- a character with a meaning of its own, the line feed standing for nothing -/
  | short {c : Char} {text : List Char} (hmember : (c, text) ∈ shortEscapes) : Escape [c] text
  /-- a code of two digits -/
  | byte {digits : List Char} {n : Nat} (hdigits : Digits 16 digits n) (htwo : digits.length = 2) :
      Escape ('x' :: digits) [Char.ofNat n]
  /-- a code point of four digits -/
  | unicode {digits : List Char} {n : Nat} (hdigits : Digits 16 digits n)
      (hfour : digits.length = 4) (hvalid : n.isValidChar) : Escape ('u' :: digits) [Char.ofNat n]
  /-- a code point of any number of digits, in braces -/
  | braced {digits : List Char} {n : Nat} (hdigits : Digits 16 digits n) (hsome : digits ≠ [])
      (hvalid : n.isValidChar) : Escape ('u' :: '\x7b' :: (digits ++ ['\x7d'])) [Char.ofNat n]
  /-- any other character, which stands for itself -/
  | self {c : Char} (hshort : c ∉ shortEscapes.map Prod.fst) (hx : c ≠ 'x') (hu : c ≠ 'u') :
      Escape [c] [c]

/-- A code point in braces with a plus sign in front of its digits. -/
inductive SignedEscape : List Char → List Char → Prop where
  /-- the sign does not count -/
  | plus {digits : List Char} {n : Nat} (hdigits : Digits 16 digits n) (hsome : digits ≠ [])
      (hvalid : n.isValidChar) :
      SignedEscape ('u' :: '\x7b' :: '+' :: (digits ++ ['\x7d'])) [Char.ofNat n]

/-- An escape as it is read. -/
def ReadEscape (e text : List Char) : Prop := Escape e text ∨ SignedEscape e text

/-- A character that stands for itself between two delimiters, in front of what is written there. -/
structure Unescaped (d : Delimiter) (c : Char) (s : List Char) : Prop where
  /-- it does not close the text -/
  inside : c ≠ d.char
  /-- it does not begin an escape -/
  slash : c ≠ '\\'
  /-- only a template literal runs over lines -/
  line : c = '\n' → d = .backtick
  /-- and that holds no substitution -/
  dollar : c = '$' → d = .backtick → s.head? ≠ some '\x7b'

/-- What is written between two delimiters for a text, with escapes of some kind. -/
inductive Writes (IsEscape : List Char → List Char → Prop) (d : Delimiter) :
    List Char → List Char → Prop where
  /-- the empty text -/
  | nil : Writes IsEscape d [] []
  /-- a character that stands for itself -/
  | plain {c : Char} {s text : List Char} (hc : Unescaped d c s) (more : Writes IsEscape d s text) :
      Writes IsEscape d (c :: s) (c :: text)
  /-- an escape -/
  | escape {e s out text : List Char} (hescape : IsEscape e out) (more : Writes IsEscape d s text) :
      Writes IsEscape d ('\\' :: (e ++ s)) (out ++ text)

/-- Behind a delimiter a text is read exactly if it is written there with escapes of some kind, in front
of one more delimiter. The offset is the one behind that. -/
def ReadsTexts (IsEscape : List Char → List Char → Prop) (d : Delimiter) (s : List Char) : Prop :=
  ∀ v n, read (String.ofList (d.char :: s)) = .ok (v, n) ↔
    ∃ body text rest, s = body ++ d.char :: rest ∧ Writes IsEscape d body text ∧
      v = .text (String.ofList text) ∧ n = byteLength (d.char :: (body ++ [d.char]))

/-- Escapes as they are read with one that has a plus sign among them, the first of these being behind
escapes that are all meant. -/
inductive HasSign (d : Delimiter) : List Char → Prop where
  /-- what is meant, an escape with a plus sign, and anything else that is read -/
  | sign {before early e out after late : List Char} (hbefore : Writes Escape d before early)
      (hsign : SignedEscape e out) (hafter : Writes ReadEscape d after late) :
      HasSign d (before ++ '\\' :: (e ++ after))

/-! ## Escapes -/

section

variable {s rest out digits : List Char} {n : Nat}

/-- Digits write a number below the power of their base. -/
theorem Digits.lt_power {base : Nat} (h : Digits base s n) : n < Number.power base s.length := by
  induction h with
  | nil => exact Nat.one_pos
  | @concat s n d c _ hc ih =>
    have hlength : (s ++ [c]).length = s.length + 1 := by simp
    rw [hlength, Number.power_succ]
    calc base * n + d < base * n + base := Nat.add_lt_add_left hc.1 _
      _ = (n + 1) * base := by rw [Nat.succ_mul, Nat.mul_comm]
      _ ≤ Number.power base s.length * base := Nat.mul_le_mul_right base ih

theorem charOf_iff : charOf n rest = .ok (out, s) ↔
    n.isValidChar ∧ out = [Char.ofNat n] ∧ s = rest := by
  rw [charOf]
  split
  · next hvalid =>
    constructor
    · intro h
      cases h
      exact ⟨hvalid, rfl, rfl⟩
    · rintro ⟨-, rfl, rfl⟩
      rfl
  · next hvalid =>
    constructor
    · intro h
      cases h
    · exact fun h => absurd h.1 hvalid

/-- A code of so many digits is read off. -/
theorem readHex_iff {count : Nat} : readHex count s = .ok (out, rest) ↔
    ∃ digits n, s = digits ++ rest ∧ digits.length = count ∧ Digits 16 digits n ∧ n.isValidChar ∧
      out = [Char.ofNat n] := by
  constructor
  · intro h
    rw [readHex] at h
    split at h
    · next n hn =>
      split at h
      · next hle =>
        obtain ⟨hvalid, rfl, rfl⟩ := charOf_iff.1 h
        exact ⟨s.take count, n, (List.take_append_drop count s).symm,
          List.length_take_of_le hle, hexNumber?_eq_some.1 hn, hvalid, rfl⟩
      · cases h
    · cases h
  · rintro ⟨digits, n, rfl, rfl, hdigits, hvalid, rfl⟩
    rw [readHex, List.take_left, List.drop_left, hexNumber?_eq_some.2 hdigits]
    dsimp only
    rw [if_pos (by simp)]
    exact charOf_iff.2 ⟨hvalid, rfl, rfl⟩

/-- Between braces stand digits, with a plus sign in front or none. -/
theorem bracedNumber?_eq_some : bracedNumber? s = some n ↔
    ∃ digits, (s = digits ∨ s = '+' :: digits) ∧ digits ≠ [] ∧ Digits 16 digits n ∧
      n < Number.power 2 32 := by
  have hread (digits : List Char) :
      (if digits = [] then none else (hexNumber? digits).filter (· < Number.power 2 32)) = some n ↔
        digits ≠ [] ∧ Digits 16 digits n ∧ n < Number.power 2 32 := by
    split
    · next hnil => simp [hnil]
    · next hsome =>
      rw [Option.filter_eq_some_iff, hexNumber?_eq_some, decide_eq_true_eq]
      simp [hsome]
  by_cases hplus : ∃ t, s = '+' :: t
  · obtain ⟨t, rfl⟩ := hplus
    refine (hread t).trans ⟨fun h => ⟨t, .inr rfl, h⟩, ?_⟩
    rintro ⟨digits, rfl | heq, h⟩
    · exact absurd List.mem_cons_self (h.2.1.notMem (by omega) (by decide))
    · cases heq
      exact h
  · rw [bracedNumber?, hread]
    · constructor
      · exact fun h => ⟨s, .inl rfl, h⟩
      · rintro ⟨digits, rfl | heq, h⟩
        · exact h
        · exact absurd ⟨digits, heq⟩ hplus
    · exact fun t ht => hplus ⟨t, ht⟩

/-- What is read behind the backslash is an escape. -/
theorem readEscape_sound (h : readEscape s = .ok (out, rest)) :
    ∃ e, s = e ++ rest ∧ ReadEscape e out := by
  have hshort {c : Char} {t : List Char} (hmember : (c, out) ∈ shortEscapes) :
      ∃ e, c :: t = e ++ t ∧ ReadEscape e out := ⟨[c], rfl, .inl (.short hmember)⟩
  unfold readEscape at h
  split at h
  case h_1 => cases h
  case h_10 t =>
    obtain ⟨digits, n, rfl, htwo, hdigits, -, rfl⟩ := readHex_iff.1 h
    exact ⟨'x' :: digits, rfl, .inl (.byte hdigits htwo)⟩
  case h_11 t =>
    split at h
    · cases h
    · next inside r hcut =>
      split at h
      · next n hn =>
        obtain ⟨hvalid, rfl, rfl⟩ := charOf_iff.1 h
        obtain ⟨digits, hinside, hsome, hdigits, -⟩ := bracedNumber?_eq_some.1 hn
        rw [cut?_eq_some hcut]
        rcases hinside with rfl | rfl
        · exact ⟨_, by simp, .inl (.braced hdigits hsome hvalid)⟩
        · exact ⟨_, by simp, .inr (.plus hdigits hsome hvalid)⟩
      · cases h
  case h_12 t _ =>
    obtain ⟨digits, n, rfl, hfour, hdigits, hvalid, rfl⟩ := readHex_iff.1 h
    exact ⟨'u' :: digits, rfl, .inl (.unicode hdigits hfour hvalid)⟩
  case h_13 c t hn ht hr hb hf hv hzero hline hx _ hu =>
    cases h
    refine ⟨[c], rfl, .inl (.self ?_ hx hu)⟩
    simpa [shortEscapes] using ⟨hn, ht, hr, hb, hf, hv, hzero, hline⟩
  all_goals
    cases h
    exact hshort (by decide)

theorem readEscape_self {c : Char} (hshort : c ∉ shortEscapes.map Prod.fst) (hx : c ≠ 'x')
    (hu : c ≠ 'u') : readEscape (c :: s) = .ok ([c], s) := by
  have hne {d : Char} (hd : d ∈ shortEscapes.map Prod.fst) : c ≠ d := by
    rintro rfl
    exact hshort hd
  rw [readEscape]
  case x_9 => exact hx
  case x_10 => exact fun _ hc => absurd hc hu
  case x_11 => exact hu
  all_goals exact hne (by decide)

/-- Behind `u` stands a brace or a code of four digits. -/
theorem readEscape_unicode (h : s.head? ≠ some '\x7b') : readEscape ('u' :: s) = readHex 4 s := by
  rw [readEscape]
  rintro t rfl
  exact h rfl

/-- Between braces a plus sign in front of the digits makes no difference. -/
theorem readEscape_braced {inside : List Char} (hinside : inside = digits ∨ inside = '+' :: digits)
    (hdigits : Digits 16 digits n) (hsome : digits ≠ []) (hvalid : n.isValidChar)
    (rest : List Char) :
    readEscape ('u' :: '\x7b' :: (inside ++ '\x7d' :: rest)) = .ok ([Char.ofNat n], rest) := by
  have hsize : n < Number.power 2 32 := by
    have hpower : Number.power 2 32 = 4294967296 := rfl
    rcases hvalid with h | h
    · omega
    · omega
  have hnumber : bracedNumber? inside = some n :=
    bracedNumber?_eq_some.2 ⟨digits, hinside, hsome, hdigits, hsize⟩
  have hbrace : '\x7d' ∉ inside := by
    have hmem : '\x7d' ∉ digits := hdigits.notMem (by omega) (by decide)
    rcases hinside with rfl | rfl
    · exact hmem
    · simpa using hmem
  have hcut := cut?_of_notMem hbrace [] rest
  rw [List.nil_append] at hcut
  simp only [readEscape, hcut, hnumber]
  exact charOf_iff.2 ⟨hvalid, rfl, rfl⟩

theorem readEscape_complete {e : List Char} (h : ReadEscape e out) (rest : List Char) :
    readEscape (e ++ rest) = .ok (out, rest) := by
  rcases h with h | h
  · cases h with
    | short hmember =>
      simp only [shortEscapes, List.mem_cons, List.not_mem_nil, or_false, Prod.mk.injEq] at hmember
      rcases hmember with ⟨rfl, rfl⟩ | ⟨rfl, rfl⟩ | ⟨rfl, rfl⟩ | ⟨rfl, rfl⟩ | ⟨rfl, rfl⟩ |
        ⟨rfl, rfl⟩ | ⟨rfl, rfl⟩ | ⟨rfl, rfl⟩
      all_goals rfl
    | @byte digits n hdigits htwo =>
      have hlt : n < 256 := by
        have hpower := hdigits.lt_power
        rwa [htwo] at hpower
      exact readHex_iff.2 ⟨digits, n, rfl, htwo, hdigits, .inl (by omega), rfl⟩
    | @unicode digits n hdigits hfour hvalid =>
      refine (readEscape_unicode (s := digits ++ rest) fun hbrace => ?_).trans
        (readHex_iff.2 ⟨digits, n, rfl, hfour, hdigits, hvalid, rfl⟩)
      have hsome : digits ≠ [] := List.ne_nil_of_length_pos (by omega)
      rw [List.head?_append_of_ne_nil _ hsome] at hbrace
      exact hdigits.notMem (by omega) (by decide) (List.mem_of_mem_head? hbrace)
    | braced hdigits hsome hvalid =>
      simpa using readEscape_braced (.inl rfl) hdigits hsome hvalid rest
    | self hshort hx hu => exact readEscape_self hshort hx hu
  · cases h with
    | plus hdigits hsome hvalid =>
      simpa using readEscape_braced (.inr rfl) hdigits hsome hvalid rest

/-- **What is read behind a backslash.** -/
theorem readEscape_iff : readEscape s = .ok (out, rest) ↔ ∃ e, s = e ++ rest ∧ ReadEscape e out := by
  constructor
  · exact readEscape_sound
  · rintro ⟨e, rfl, h⟩
    exact readEscape_complete h rest

/-- Two escapes that a text begins with are the same. -/
theorem ReadEscape.unique {e f t u : List Char} {out out' : List Char} (he : ReadEscape e out)
    (hf : ReadEscape f out') (h : e ++ t = f ++ u) : e = f ∧ out = out' ∧ t = u := by
  have hread := readEscape_complete he t
  rw [h, readEscape_complete hf] at hread
  cases hread
  exact ⟨List.append_cancel_right h, rfl, rfl⟩

/-- What is meant as an escape has no plus sign in front of its digits. -/
theorem SignedEscape.not_escape {e out' : List Char} (h : SignedEscape e out) :
    ¬ Escape e out' := by
  intro hescape
  cases h with
  | @plus digits n _ _ _ =>
    generalize he : 'u' :: '\x7b' :: '+' :: (digits ++ ['\x7d']) = e at hescape
    cases hescape with
    | short _ | self _ _ _ | byte _ _ => cases he
    | unicode hdigits _ _ =>
      rw [← (List.cons.inj he).2] at hdigits
      exact hdigits.notMem (by omega) (by decide) List.mem_cons_self
    | braced hdigits _ _ =>
      obtain rfl : '+' :: digits = _ :=
        List.append_cancel_right (List.cons.inj (List.cons.inj he).2).2
      exact hdigits.notMem (by omega) (by decide) List.mem_cons_self

end

/-! ## Texts -/

section

variable {IsEscape : List Char → List Char → Prop} {d : Delimiter} {c : Char} {s text rest : List Char}

theorem Writes.mono {Other : List Char → List Char → Prop} (h : ∀ e out, IsEscape e out → Other e out)
    (hs : Writes IsEscape d s text) : Writes Other d s text := by
  induction hs with
  | nil => exact .nil
  | plain hc _ ih => exact .plain hc ih
  | escape hescape _ ih => exact .escape (h _ _ hescape) ih

theorem Writes.read (h : Writes Escape d s text) : Writes ReadEscape d s text :=
  h.mono fun _ _ => .inl

/-- Behind a backslash stands an escape. -/
theorem writes_slash_iff : Writes IsEscape d ('\\' :: s) text ↔ ∃ e t out more,
    s = e ++ t ∧ text = out ++ more ∧ IsEscape e out ∧ Writes IsEscape d t more := by
  constructor
  · intro h
    generalize hs : '\\' :: s = s' at h
    cases h with
    | nil => cases hs
    | plain hc more => exact absurd (List.cons.inj hs).1.symm hc.slash
    | escape hescape more => exact ⟨_, _, _, _, (List.cons.inj hs).2, rfl, hescape, more⟩
  · rintro ⟨e, t, out, more, rfl, rfl, hescape, hmore⟩
    exact .escape hescape hmore

/-- What does not begin with a backslash begins with a character that stands for itself. -/
theorem Writes.of_cons (hc : c ≠ '\\') (h : Writes IsEscape d (c :: s) text) :
    ∃ more, Writes IsEscape d s more := by
  generalize hs : c :: s = s' at h
  cases h with
  | nil => cases hs
  | plain _ more =>
    cases hs
    exact ⟨_, more⟩
  | escape _ _ => exact absurd (List.cons.inj hs).1 hc

/-- What stands behind a character counts only as far as it could make it a substitution. -/
theorem unescaped_append {t : List Char} (ht : t.head? ≠ some '\x7b') :
    Unescaped d c (s ++ t) ↔ Unescaped d c s := by
  have hhead : (s ++ t).head? = some '\x7b' ↔ s.head? = some '\x7b' := by
    cases s with
    | nil => simpa using ht
    | cons c s => rfl
  constructor
  · rintro ⟨inside, slash, line, dollar⟩
    exact ⟨inside, slash, line, fun hc hd => mt hhead.2 (dollar hc hd)⟩
  · rintro ⟨inside, slash, line, dollar⟩
    exact ⟨inside, slash, line, fun hc hd => mt hhead.1 (dollar hc hd)⟩

theorem head?_delimiter (d : Delimiter) (rest : List Char) :
    (d.char :: rest).head? ≠ some '\x7b' := by
  cases d
  all_goals
    rintro ⟨⟩

theorem readText_sound (h : readText d s = .ok (text, rest)) :
    ∃ body, s = body ++ d.char :: rest ∧ Writes ReadEscape d body text := by
  fun_induction readText d s generalizing text with
  | case1 | case3 | case4 | case6 | case7 | case8 => cases h
  | case2 t =>
    cases h
    exact ⟨[], rfl, .nil⟩
  | case5 t out r hescape more r' hmore _ ih =>
    cases h
    obtain ⟨e, rfl, he⟩ := readEscape_iff.1 hescape
    obtain ⟨body, rfl, hbody⟩ := ih hmore
    exact ⟨'\\' :: (e ++ body), by simp, .escape he hbody⟩
  | case9 c t hinside hslash hline hdollar more r' hmore ih =>
    cases h
    obtain ⟨body, rfl, hbody⟩ := ih hmore
    refine ⟨c :: body, rfl, .plain ?_ hbody⟩
    refine (unescaped_append (head?_delimiter d rest)).1 ⟨hinside, hslash, ?_, ?_⟩
    · exact fun hc => by_contra fun hd => hline ⟨hc, hd⟩
    · exact fun hc hd hhead => hdollar ⟨hc, hd, hhead⟩

theorem readText_complete {body : List Char} (h : Writes ReadEscape d body text)
    (rest : List Char) :
    readText d (body ++ d.char :: rest) = .ok (text, rest) := by
  induction h with
  | nil => rw [List.nil_append, readText, if_pos rfl]
  | plain hc _ ih =>
    obtain ⟨inside, slash, line, dollar⟩ := (unescaped_append (head?_delimiter d rest)).2 hc
    rw [List.cons_append, readText, if_neg inside, if_neg slash, if_neg fun h => h.2 (line h.1),
      if_neg fun h => dollar h.1 h.2.1 h.2.2, ih]
  | @escape e s out text he _ ih =>
    have hescape := readEscape_complete he (s ++ d.char :: rest)
    have hslash : '\\' ≠ d.char := by cases d <;> decide
    rw [List.cons_append, List.append_assoc, readText, if_neg hslash, if_pos rfl]
    split
    · next h => cases hescape.symm.trans h
    · next h =>
      cases hescape.symm.trans h
      rw [ih]

/-- **What is read between delimiters.** -/
theorem readText_iff : readText d s = .ok (text, rest) ↔
    ∃ body, s = body ++ d.char :: rest ∧ Writes ReadEscape d body text := by
  constructor
  · exact readText_sound
  · rintro ⟨body, rfl, h⟩
    exact readText_complete h rest

/-- A literal that starts with a delimiter is a text. -/
theorem value?_delimiter (d : Delimiter) (s : List Char) : value? (d.char :: s) =
    (readText d s).map fun (text, rest) => (.text (String.ofList text), rest) := by
  have hd : Delimiter.ofChar? d.char = some d := ofChar?_eq_some.2 rfl
  have hstart : startsToken d.char = true := by simp [startsToken, hd]
  rw [value?_of_startsToken hstart]
  unfold readScalar
  dsimp only
  split
  · next d' hd' =>
    obtain rfl : d = d' := Option.some.inj (hd.symm.trans hd')
    split
    · next h => simp only [h, Except.map]
    · next h => simp only [h, Except.map]
  · next hd' => cases hd.symm.trans hd'

theorem readsTexts_readEscape (d : Delimiter) (s : List Char) : ReadsTexts ReadEscape d s := by
  have hlength (body rest : List Char) : byteLength (d.char :: (body ++ d.char :: rest)) -
      byteLength rest = byteLength (d.char :: (body ++ [d.char])) := by
    have hsplit : d.char :: (body ++ d.char :: rest) = d.char :: (body ++ [d.char]) ++ rest := by simp
    rw [hsplit, byteLength_append, Nat.add_sub_cancel]
  intro v n
  rw [read, String.toList_ofList, value?_delimiter]
  constructor
  · intro h
    rcases htext : readText d s with stop | ⟨text, rest⟩
    · rw [htext] at h
      cases h
    · rw [htext] at h
      cases h
      obtain ⟨body, rfl, hbody⟩ := readText_iff.1 htext
      exact ⟨body, text, rest, rfl, hbody, rfl, hlength body rest⟩
  · rintro ⟨body, text, rest, rfl, hbody, rfl, rfl⟩
    rw [readText_complete hbody, ← hlength body rest]
    rfl

/-! ## Plus signs -/

/-- What is read is meant, unless it has a plus sign. -/
theorem writes_cases (h : Writes ReadEscape d s text) : Writes Escape d s text ∨ HasSign d s := by
  induction h with
  | nil => exact .inl .nil
  | @plain c s text hc _ ih =>
    rcases ih with hmeant | ⟨hbefore, hsign, hafter⟩
    · exact .inl (.plain hc hmeant)
    · have hc' := (unescaped_append (by simp)).1 hc
      exact .inr (.sign (.plain hc' hbefore) hsign hafter)
  | @escape e s out text he hmore ih =>
    rcases he with he | he
    · rcases ih with hmeant | ⟨hbefore, hsign, hafter⟩
      · exact .inl (.escape he hmeant)
      · have h := HasSign.sign (.escape he hbefore) hsign hafter
        rw [List.cons_append, List.append_assoc] at h
        exact .inr h
    · exact .inr (.sign .nil he hmore)

namespace HasSign

/-- What has a plus sign is read too, -/
theorem read (h : HasSign d s) : ∃ text, Writes ReadEscape d s text := by
  obtain ⟨hbefore, hsign, hafter⟩ := h
  induction hbefore with
  | nil => exact ⟨_, .escape (.inr hsign) hafter⟩
  | plain hc _ ih =>
    obtain ⟨text, hmore⟩ := ih
    exact ⟨_, .plain ((unescaped_append (by simp)).2 hc) hmore⟩
  | escape he _ ih =>
    obtain ⟨text, hmore⟩ := ih
    rw [List.cons_append, List.append_assoc]
    exact ⟨_, .escape (.inl he) hmore⟩

/-- but it is not meant. -/
theorem not_writes (h : HasSign d s) : ¬ Writes Escape d s text := by
  intro hmeant
  obtain ⟨hbefore, hsign, hafter⟩ := h
  induction hbefore generalizing text with
  | nil =>
    obtain ⟨f, t, out, more, heq, -, hf, -⟩ := writes_slash_iff.1 hmeant
    obtain ⟨rfl, -, -⟩ := ReadEscape.unique (.inr hsign) (.inl hf) heq
    exact hsign.not_escape hf
  | plain hc _ ih =>
    obtain ⟨more, hmore⟩ := hmeant.of_cons hc.slash
    exact ih hmore
  | escape he _ ih =>
    rw [List.cons_append, List.append_assoc] at hmeant
    obtain ⟨f, t, out, more, heq, -, hf, hmore⟩ := writes_slash_iff.1 hmeant
    obtain ⟨rfl, -, rfl⟩ := ReadEscape.unique (.inl he) (.inl hf) heq
    exact ih hmore

end HasSign

/-- Only one beginning of a text is written up to a delimiter. -/
theorem Writes.unique {body body' rest' text' : List Char} (h : Writes ReadEscape d body text)
    (h' : Writes ReadEscape d body' text') (heq : body ++ d.char :: rest = body' ++ d.char :: rest') :
    body = body' := by
  have hread := readText_complete h rest
  rw [heq, readText_complete h'] at hread
  cases hread
  exact List.append_cancel_right heq

theorem readsTexts_escape_iff (d : Delimiter) (s : List Char) : ReadsTexts Escape d s ↔
    ¬ ∃ body rest, s = body ++ d.char :: rest ∧ HasSign d body := by
  have hread := readsTexts_readEscape d s
  constructor
  · rintro h ⟨body, rest, hs, hsign⟩
    obtain ⟨text, hbody⟩ := hsign.read
    have hok := (hread _ _).2 ⟨body, text, rest, hs, hbody, rfl, rfl⟩
    obtain ⟨body', text', rest', hs', hmeant, -, -⟩ := (h _ _).1 hok
    obtain rfl := hbody.unique hmeant.read (hs.symm.trans hs')
    exact hsign.not_writes hmeant
  · intro h v n
    rw [hread v n]
    constructor
    · rintro ⟨body, text, rest, hs, hbody, hv, hn⟩
      rcases writes_cases hbody with hmeant | hsign
      · exact ⟨body, text, rest, hs, hmeant, hv, hn⟩
      · exact absurd ⟨body, rest, hs, hsign⟩ h
    · rintro ⟨body, text, rest, hs, hmeant, hv, hn⟩
      exact ⟨body, text, rest, hs, hmeant.read, hv, hn⟩

/-- **Texts between delimiters.** Behind a delimiter the reader accepts exactly what is written there
for a text with escapes as they are read. These are the escapes that are meant exactly if no code point
with a plus sign is met in front of the closing delimiter. -/
theorem read_quoted (d : Delimiter) (s : List Char) : ReadsTexts ReadEscape d s ∧
    (ReadsTexts Escape d s ↔ ¬ ∃ body rest, s = body ++ d.char :: rest ∧ HasSign d body) :=
  ⟨readsTexts_readEscape d s, readsTexts_escape_iff d s⟩

/-- A code point with a plus sign is read. -/
theorem read_quoted_signed : ¬ ∀ d s, ReadsTexts Escape d s := by
  intro h
  have hdigits : Digits 16 ['4', '1'] 65 := hexNumber?_eq_some.1 (by decide)
  have hsign : HasSign .double ['\\', 'u', '\x7b', '+', '4', '1', '\x7d'] :=
    .sign .nil (.plus hdigits (by simp) (by decide)) .nil
  exact (readsTexts_escape_iff .double _).1 (h _ _) ⟨_, [], rfl, hsign⟩

end

end StaticSite.Literal
