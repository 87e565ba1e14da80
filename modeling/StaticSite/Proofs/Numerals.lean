import Mathlib.Data.List.Induction
import StaticSite.Proofs.Acceptance
import StaticSite.Proofs.OpeningTags
import StaticSite.Template.Expression
import StaticSite.Text.Word

/-!
# Integers as they are written

An integer is written with a sign or none, a mark for its base or none, and digits of the base, with
underscores anywhere behind the first one. Up to 63 bits it is read as that integer, whatever base it
is in. The sign is put on behind this bound, so the least integer of 64 bits is out of reach: written
in decimal it is read as a double, and in another base it is no number (`read_integer`). The reader
of expressions looks at the sign first and reads it too.
-/

namespace StaticSite.Literal

open Text

/-- Characters that a test tells apart are different. -/
theorem ne_of_test {p : Char → Bool} {c d : Char} (hc : p c = true) (hd : p d = false) : c ≠ d := by
  rintro rfl
  cases hc.symm.trans hd

/-! ## Digits -/

/-- A digit of a base, in lower or in upper case. -/
def IsDigit (base : Nat) (c : Char) (d : Nat) : Prop :=
  d < base ∧ (c = digitChar d ∨ c = (digitChar d).toUpper)

/-- Digits of a base, and the number that they write. -/
inductive Digits (base : Nat) : List Char → Nat → Prop where
  /-- no digits -/
  | nil : Digits base [] 0
  /-- one digit more behind the others -/
  | concat {s : List Char} {n d : Nat} {c : Char} (h : Digits base s n) (hc : IsDigit base c d) :
      Digits base (s ++ [c]) (base * n + d)

section

variable {base n d : Nat} {c : Char} {s : List Char}

theorem hexValue?_ascii : ∀ n < 128, ∀ d < 16, hexValue? (Char.ofNat n) = some d →
    Char.ofNat n = digitChar d ∨ Char.ofNat n = (digitChar d).toUpper := by
  decide +kernel

theorem hexValue?_lt (h : hexValue? c = some d) : c.toNat < 128 ∧ d < 16 := by
  have hzero : '0'.val.toNat = 48 := rfl
  have hnine : '9'.val.toNat = 57 := rfl
  have ha : 'a'.val.toNat = 97 := rfl
  have hf : 'f'.val.toNat = 102 := rfl
  have hA : 'A'.val.toNat = 65 := rfl
  have hF : 'F'.val.toNat = 70 := rfl
  simp only [hexValue?, Char.isDigit, Char.le_def, UInt32.le_iff_toNat_le, Char.toNat, ge_iff_le,
    Bool.and_eq_true, decide_eq_true_eq] at *
  split at h
  · cases h
    omega
  · split at h
    · cases h
      omega
    · split at h
      · cases h
        omega
      · cases h

theorem hexValue?_eq_some : hexValue? c = some d ↔ IsDigit 16 c d := by
  constructor
  · intro h
    obtain ⟨hc, hd⟩ := hexValue?_lt h
    have htable := hexValue?_ascii c.toNat hc d hd
    rw [Char.ofNat_toNat] at htable
    exact ⟨hd, htable h⟩
  · rintro ⟨hd, rfl | rfl⟩
    · revert d
      decide
    · revert d
      decide

theorem digitIn?_eq_some (hbase : base ≤ 16) : digitIn? base c = some d ↔ IsDigit base c d := by
  rw [digitIn?, Option.filter_eq_some_iff, hexValue?_eq_some, decide_eq_true_eq]
  constructor
  · rintro ⟨⟨-, hc⟩, hd⟩
    exact ⟨hd, hc⟩
  · rintro ⟨hd, hc⟩
    exact ⟨⟨by omega, hc⟩, hd⟩

/-- Digits are read from the left, each one to the last place of what is read so far. -/
theorem foldlM_eq_some {value? : Char → Option Nat}
    (hvalue : ∀ c d, value? c = some d ↔ IsDigit base c d) :
    s.foldlM (fun n c => (value? c).map (base * n + ·)) 0 = some n ↔ Digits base s n := by
  induction s using List.reverseRecOn generalizing n with
  | nil =>
    constructor
    · intro h
      cases h
      exact .nil
    · intro h
      generalize hs : [] = s at h
      cases h with
      | nil => rfl
      | concat => simp at hs
  | append_singleton s c ih =>
    simp only [List.foldlM_append, List.foldlM_cons, List.foldlM_nil, Option.bind_eq_bind,
      Option.bind_eq_some_iff, Option.map_eq_some_iff, Option.pure_def, Option.some_inj, ih, hvalue]
    constructor
    · rintro ⟨m, hm, _, ⟨d, hd, rfl⟩, rfl⟩
      exact .concat hm hd
    · intro h
      generalize hs : s ++ [c] = s' at h
      cases h with
      | nil => simp at hs
      | @concat s' m d c' hm hd =>
        obtain ⟨rfl, rfl⟩ := List.append_singleton_inj.1 hs
        exact ⟨m, hm, _, ⟨d, hd, rfl⟩, rfl⟩

theorem hexNumber?_eq_some : hexNumber? s = some n ↔ Digits 16 s n :=
  foldlM_eq_some fun _ _ => hexValue?_eq_some

/-- **Digits are read as the number that they write.** -/
theorem natIn?_eq_some (hbase : base ≤ 16) : natIn? base s = some n ↔ s ≠ [] ∧ Digits base s n := by
  rw [natIn?, ← foldlM_eq_some fun _ _ => digitIn?_eq_some hbase]
  split
  · next hs => simp [hs]
  · next hs => simp [hs]

end

/-! ## Integers -/

/-- The sign in front of an integer. -/
inductive Sign where
  /-- no sign -/
  | none
  /-- a plus sign -/
  | plus
  /-- a minus sign -/
  | minus
  deriving DecidableEq, Repr

namespace Sign

/-- A sign as it is written. -/
def text : Sign → List Char
  | .none => []
  | .plus => ['+']
  | .minus => ['-']

/-- Whether a sign makes a number negative. -/
def isMinus : Sign → Bool
  | .minus => true
  | _ => false

/-- A number with a sign. -/
def apply (sign : Sign) (n : Nat) : Int := if sign.isMinus then -(n : Int) else n

end Sign

/-- The least integer of 64 bits. -/
def leastInt : Int := -(Number.greatestInt : Int) - 1

/-- An integer of 64 bits. -/
def IsInt64 (i : Int) : Prop := leastInt ≤ i ∧ i ≤ Number.greatestInt

instance (i : Int) : Decidable (IsInt64 i) :=
  inferInstanceAs (Decidable (leastInt ≤ i ∧ i ≤ Number.greatestInt))

/-- The marks of the bases; decimal has none. -/
def marks : List (List Char × Nat) :=
  [([], 10), (['0', 'x'], 16), (['0', 'X'], 16), (['0', 'o'], 8), (['0', 'O'], 8), (['0', 'b'], 2),
    (['0', 'B'], 2)]

/-- Digits of a base, with underscores anywhere behind the first one. -/
def Spelled (base : Nat) (s : List Char) (n : Nat) : Prop :=
  s ≠ [] ∧ s.head? ≠ some '_' ∧ Digits base (dropUnderscores s) n

/-- A text that does not go on with what could belong to a number. -/
def Ends (t : List Char) : Prop :=
  ∀ c, t.head? = some c → c.isAlphanum = false ∧ c ≠ '_' ∧ c ≠ '.'

section

variable {base n : Nat} {s t : List Char}

theorem isAlphanum_of_isDigit {c : Char} {d : Nat} (hbase : base ≤ 16) (h : IsDigit base c d) :
    c.isAlphanum = true := by
  have htable : ∀ d < 16,
      (digitChar d).isAlphanum = true ∧ (digitChar d).toUpper.isAlphanum = true := by decide
  obtain ⟨hd, hc⟩ := h
  obtain ⟨hlower, hupper⟩ := htable d (by omega)
  rcases hc with rfl | rfl
  · exact hlower
  · exact hupper

theorem isDigit_of_decimal {c : Char} {d : Nat} (h : IsDigit 10 c d) : c.isDigit = true := by
  have htable : ∀ d < 10, (digitChar d).isDigit = true ∧ (digitChar d).toUpper.isDigit = true := by
    decide
  obtain ⟨hd, hc⟩ := h
  obtain ⟨hlower, hupper⟩ := htable d hd
  rcases hc with rfl | rfl
  · exact hlower
  · exact hupper

theorem Digits.forall_mem (h : Digits base s n) : ∀ c ∈ s, ∃ d, IsDigit base c d := by
  induction h with
  | nil => exact fun c hc => absurd hc List.not_mem_nil
  | @concat s n d c _ hc ih =>
    intro c' hc'
    rcases List.mem_append.1 hc' with hc' | hc'
    · exact ih c' hc'
    · rw [List.mem_singleton.1 hc']
      exact ⟨d, hc⟩

/-- What is no letter and no decimal digit is no digit of a base. -/
theorem Digits.notMem {c : Char} (h : Digits base s n) (hbase : base ≤ 16)
    (hc : c.isAlphanum = false) : c ∉ s := by
  intro hmem
  obtain ⟨d, hd⟩ := h.forall_mem c hmem
  cases (isAlphanum_of_isDigit hbase hd).symm.trans hc

namespace Spelled

/-- Only digits and underscores are written. -/
theorem forall_mem (h : Spelled base s n) : ∀ c ∈ s, (∃ d, IsDigit base c d) ∨ c = '_' := by
  intro c hc
  by_cases hunderscore : c = '_'
  · exact .inr hunderscore
  · exact .inl (h.2.2.forall_mem c (by simp [dropUnderscores, hc, hunderscore]))

/-- It begins with a digit. -/
theorem exists_cons (h : Spelled base s n) : ∃ c u d, s = c :: u ∧ IsDigit base c d := by
  obtain ⟨c, u, rfl⟩ := List.exists_cons_of_ne_nil h.1
  rcases h.forall_mem c List.mem_cons_self with ⟨d, hd⟩ | rfl
  · exact ⟨c, u, d, rfl, hd⟩
  · exact absurd rfl h.2.1

/-- The first digit stays when the underscores are left out. -/
theorem exists_digits (h : Spelled base s n) :
    ∃ c u d, dropUnderscores s = c :: u ∧ IsDigit base c d := by
  obtain ⟨c, u, d, rfl, hd⟩ := h.exists_cons
  have hc : c ≠ '_' := fun heq => h.2.1 (by rw [heq, List.head?_cons])
  exact ⟨c, dropUnderscores u, d, by simp [dropUnderscores, hc], hd⟩

theorem natIn? (h : Spelled base s n) (hbase : base ≤ 16) :
    natIn? base (dropUnderscores s) = some n := by
  refine (natIn?_eq_some hbase).2 ⟨fun hnil => ?_, h.2.2⟩
  obtain ⟨c, u, d, hcons, -⟩ := h.exists_digits
  cases hcons.symm.trans hnil

end Spelled

/-! ### Decimals -/

/-- The run of a decimal is all that is written. -/
theorem decimalRun_spelled (hs : ∀ c ∈ s, c.isDigit = true ∨ c = '_') (ht : Ends t)
    {before : Option Char} (hbefore : before ≠ some 'e' ∧ before ≠ some 'E') :
    decimalRun before (s ++ t) = (s, t) := by
  induction s generalizing before with
  | nil =>
    rcases t with _ | ⟨c, t⟩
    · rfl
    · obtain ⟨halnum, hunderscore, hpoint⟩ := ht c rfl
      have hdigit : c.isDigit = false := (Bool.or_eq_false_iff.1 halnum).2
      have hne (d : Char) (hd : d.isAlphanum = true) : c ≠ d := (ne_of_test hd halnum).symm
      rw [List.nil_append, decimalRun, if_neg]
      simp [hdigit, hpoint, hunderscore, hne 'e' (by decide), hne 'E' (by decide), hbefore]
  | cons c s ih =>
    have hc := hs c List.mem_cons_self
    have hmore : decimalRun (some c) (s ++ t) = (s, t) := by
      refine ih (fun d hd => hs d (List.mem_cons_of_mem _ hd)) ?_
      rcases hc with hdigit | rfl
      · simpa using ⟨ne_of_test hdigit (d := 'e') rfl, ne_of_test hdigit (d := 'E') rfl⟩
      · decide
    rw [List.cons_append, decimalRun, if_pos (by tauto), hmore]

/-- A decimal is an integer if it is not too large for one, and else a double. -/
theorem runValue?_spelled (h : Spelled 10 s n) (negative : Bool) :
    runValue? negative s = match signedInt? negative n with
      | some i => some (.int i)
      | none => (Binary64.ofDecimal? negative n 0).map .double := by
  have hdigit : ∀ c ∈ dropUnderscores s, c.isDigit = true := fun c hc =>
    (h.2.2.forall_mem c hc).elim fun _ => isDigit_of_decimal
  have hfloat : ((dropUnderscores s).any fun c => c = '.' ∨ c = 'e' ∨ c = 'E') = false := by
    rw [List.any_eq_false]
    intro c hc
    have hne (d : Char) (hd : d.isDigit = false) : c ≠ d := ne_of_test (hdigit c hc) hd
    simp [hne '.' rfl, hne 'e' rfl, hne 'E' rfl]
  have hdecimal : decimal? (dropUnderscores s) = some (n, 0) := by
    have htake : (dropUnderscores s).takeWhile Char.isDigit = dropUnderscores s :=
      List.takeWhile_eq_self_iff.2 hdigit
    have hdrop : (dropUnderscores s).dropWhile Char.isDigit = [] :=
      List.dropWhile_eq_nil_iff.2 hdigit
    rw [decimal?]
    simp [htake, hdrop, h.natIn? (by omega), exponent?]
  have hnumber : natIn? 10 (dropUnderscores s) = some n := h.natIn? (by omega)
  rcases hsize : signedInt? negative n with _ | i
  · simp only [runValue?, hfloat, hnumber, hdecimal, hsize, Bool.false_eq_true, if_false,
      Option.bind_some]
  · simp only [runValue?, hfloat, hnumber, hsize, Bool.false_eq_true, if_false, Option.bind_some]

/-! ### The parts of an integer -/

/-- What is no letter does not mark a base. -/
theorem readBase_eq_none {s : List Char} (h : ∀ c u, s.tail = c :: u → c.isAlpha = false) :
    readBase s = none := by
  unfold readBase
  split
  case h_7 => rfl
  all_goals exact absurd (h _ _ rfl) (by decide)

/-- A decimal has no mark. -/
theorem readBase_spelled (h : Spelled 10 s n) (ht : Ends t) : readBase (s ++ t) = none := by
  obtain ⟨c, u, -, rfl, -⟩ := h.exists_cons
  refine readBase_eq_none fun d v hv => ?_
  rcases u with _ | ⟨e, u⟩
  · have halnum := (ht d (by simpa using congrArg List.head? hv)).1
    exact (Bool.or_eq_false_iff.1 halnum).1
  · obtain rfl : e = d := by simpa using congrArg List.head? hv
    rcases h.forall_mem e (by simp) with ⟨x, hx⟩ | rfl
    · rw [Bool.eq_false_iff]
      intro halpha
      have hdigit := isDigit_of_decimal hx
      rw [not_isDigit_of_isAlpha halpha] at hdigit
      cases hdigit
    · decide

/-- A mark is empty, or it is told by its two characters. -/
theorem mark_cases {mark : List Char} (hmark : (mark, base) ∈ marks) :
    mark = [] ∧ base = 10 ∨
      base ≤ 16 ∧ ∃ c, mark = ['0', c] ∧ ∀ u, readBase ('0' :: c :: u) = some (base, u) := by
  simp only [marks, List.mem_cons, List.not_mem_nil, or_false, Prod.mk.injEq] at hmark
  rcases hmark with hnone | ⟨rfl, rfl⟩ | ⟨rfl, rfl⟩ | ⟨rfl, rfl⟩ | ⟨rfl, rfl⟩ | ⟨rfl, rfl⟩ |
    ⟨rfl, rfl⟩
  · exact .inl hnone
  all_goals exact .inr ⟨by omega, _, rfl, fun _ => rfl⟩

/-- A sign is taken off, and nothing else is one. -/
theorem readSign_text (sign : Sign) {c : Char} (hc : c.isDigit = true) (u : List Char) :
    readSign (sign.text ++ c :: u) = (sign.isMinus, c :: u) := by
  cases sign with
  | none =>
    have hne (d : Char) (hd : d.isDigit = false) : c ≠ d := ne_of_test hc hd
    rw [Sign.text, List.nil_append]
    unfold readSign
    split
    · next heq => exact absurd (List.cons.inj heq).1 (hne '-' rfl)
    · next heq => exact absurd (List.cons.inj heq).1 (hne '+' rfl)
    · rfl
  | plus | minus => rfl

/-- An unsigned integer begins with a decimal digit, that of its mark if it has one. -/
theorem exists_digit {mark : List Char} (hmark : (mark, base) ∈ marks) (h : Spelled base s n) :
    ∃ c u, mark ++ s = c :: u ∧ c.isDigit = true := by
  rcases mark_cases hmark with ⟨rfl, rfl⟩ | ⟨-, c, rfl, -⟩
  · obtain ⟨c, u, d, rfl, hd⟩ := h.exists_cons
    exact ⟨c, u, rfl, isDigit_of_decimal hd⟩
  · exact ⟨'0', c :: s, rfl, rfl⟩

/-- A sign and a digit start a number. -/
theorem startsNumber_text (sign : Sign) {c : Char} (hc : c.isDigit = true) (u : List Char) :
    ∃ d v, sign.text ++ c :: u = d :: v ∧ isNumberStart d = true := by
  cases sign with
  | none => exact ⟨c, u, rfl, by simp [isNumberStart, hc]⟩
  | plus | minus => exact ⟨_, _, rfl, rfl⟩

/-! ### Reading numbers -/

section

variable {w u : List Char} {negative : Bool}

theorem readNumber_decimal {x : Number} (hsign : readSign w = (negative, s ++ t))
    (h : Spelled 10 s n) (ht : Ends t) (hvalue : runValue? negative s = some x) :
    readNumber w = .ok (x, t) := by
  have hrun : decimalRun none (s ++ t) = (s, t) := by
    refine decimalRun_spelled (fun c hc => ?_) ht (by simp)
    exact (h.forall_mem c hc).imp_left fun ⟨_, hd⟩ => isDigit_of_decimal hd
  rw [readNumber, hsign]
  simp only [readBase_spelled h ht, hrun, hvalue]

theorem readNumber_marked (hsign : readSign w = (negative, u))
    (hbase : readBase u = some (base, s ++ t)) (hle : base ≤ 16) (h : Spelled base s n) (ht : Ends t) :
    readNumber w = match signedInt? negative n with
      | some i => .ok (.int i, t)
      | none => .error ⟨.badInteger, w⟩ := by
  have hbelongs : ∀ c ∈ s, ((digitIn? base c).isSome || c = '_') = true := by
    intro c hc
    rcases h.forall_mem c hc with ⟨d, hd⟩ | rfl
    · rw [(digitIn?_eq_some hle).2 hd]
      rfl
    · simp
  have hends : ∀ c, t.head? = some c → ((digitIn? base c).isSome || c = '_') = false := by
    intro c hc
    obtain ⟨halnum, hunderscore, -⟩ := ht c hc
    rcases hd : digitIn? base c with _ | d
    · simpa using hunderscore
    · rw [isAlphanum_of_isDigit hle ((digitIn?_eq_some hle).1 hd)] at halnum
      cases halnum
  have htake := Markup.takeWhile_append_of_head hbelongs hends
  have hdrop := Markup.dropWhile_append_of_head hbelongs hends
  rcases hsize : signedInt? negative n with _ | i
  · simp only [readNumber, hsign, hbase, htake, h.natIn? hle, Option.bind_some, hsize]
  · simp only [readNumber, hsign, hbase, htake, hdrop, h.natIn? hle, Option.bind_some, hsize]

end

/-- The number that an integer is read as, if it is read. Up to 63 bits it is the integer. Beyond them
a decimal becomes a double. -/
def integerValue? (sign : Sign) (mark : List Char) (n : Nat) : Option Number :=
  match signedInt? sign.isMinus n with
  | some i => some (.int i)
  | none => if mark = [] then (Binary64.ofDecimal? sign.isMinus n 0).map .double else none

/-- The reader of numbers on an integer with anything behind it that does not belong to it. -/
theorem readNumber_integer (sign : Sign) {mark : List Char} (hmark : (mark, base) ∈ marks)
    (h : Spelled base s n) (ht : Ends t) :
    (∀ x, integerValue? sign mark n = some x →
      readNumber (sign.text ++ (mark ++ s) ++ t) = .ok (x, t)) ∧
    (mark ≠ [] → integerValue? sign mark n = none →
      readNumber (sign.text ++ (mark ++ s) ++ t) =
        .error ⟨.badInteger, sign.text ++ (mark ++ s) ++ t⟩) := by
  have hsign : readSign (sign.text ++ (mark ++ s) ++ t) = (sign.isMinus, mark ++ s ++ t) := by
    obtain ⟨c, u, hcons, hc⟩ := exists_digit hmark h
    rw [hcons]
    exact (congrArg readSign (List.append_assoc ..)).trans (readSign_text sign hc (u ++ t))
  rcases mark_cases hmark with ⟨rfl, rfl⟩ | ⟨hle, c, rfl, hbase⟩
  · refine ⟨fun x hx => readNumber_decimal hsign h ht ?_, fun hne => absurd rfl hne⟩
    rw [List.nil_append, runValue?_spelled h, ← hx, integerValue?, if_pos rfl]
  · rw [readNumber_marked hsign (hbase (s ++ t)) hle h ht, integerValue?, if_neg (by simp)]
    rcases signedInt? sign.isMinus n with _ | i
    · exact ⟨fun x hx => (by cases hx), fun _ _ => rfl⟩
    · refine ⟨fun x hx => ?_, fun _ hx => (by cases hx)⟩
      cases hx
      rfl

/-- The least integer of 64 bits as a double. -/
def leastDouble : Binary64 := ⟨true, Number.power 2 52, 11⟩

theorem integerValue?_of_le (sign : Sign) (mark : List Char) (hn : n ≤ Number.greatestInt) :
    integerValue? sign mark n = some (.int (sign.apply n)) := by
  rw [integerValue?, signedInt?, if_pos hn]
  rfl

/-- The size of the least integer is beyond 63 bits. -/
theorem integerValue?_least (mark : List Char) : integerValue? .minus mark (Number.greatestInt + 1) =
    if mark = [] then some (.double leastDouble) else none := by
  have hdouble : Binary64.ofDecimal? true (Number.greatestInt + 1) 0 = some leastDouble := by
    decide +kernel
  rw [integerValue?, signedInt?, if_neg (by omega), Sign.isMinus, hdouble]
  rfl

/-! ## Reading literals -/

theorem not_isBlank_of_isAlphanum {c : Char} (h : c.isAlphanum = true) :
    isBlank c = false ∧ c ≠ '/' := by
  obtain ⟨hlow, hhigh⟩ := toNat_of_isAlphanum h
  refine ⟨?_, ?_⟩
  · simp only [isBlank, Bool.or_eq_false_iff, Bool.and_eq_false_iff, decide_eq_false_iff_not,
      beq_eq_false_iff_ne]
    omega
  · rintro rfl
    exact absurd hlow (by decide)

/-- A token has no blanks in front and does not start like a comment. -/
theorem not_isBlank_of_startsToken {c : Char} (h : startsToken c = true) :
    isBlank c = false ∧ c ≠ '/' := by
  simp only [startsToken, isNumberStart, isWordStart, Bool.or_eq_true, decide_eq_true_eq] at h
  obtain (hd | ((rfl | rfl) | rfl) | hdigit) | (halpha | rfl) | rfl := h
  · obtain ⟨d, hd⟩ := Option.isSome_iff_exists.1 hd
    rw [ofChar?_eq_some.1 hd]
    cases d <;> decide
  · decide
  · decide
  · decide
  · exact not_isBlank_of_isAlphanum (by simp [Char.isAlphanum, hdigit])
  · exact not_isBlank_of_isAlphanum (by simp [Char.isAlphanum, halpha])
  · decide
  · decide

theorem derives_of_scalar {v : Data} (h : Scalar s v t) : Derives (.one .value) s v t := by
  obtain ⟨c, hc, hstart⟩ := h.startsToken
  obtain ⟨hblank, hslash⟩ := not_isBlank_of_startsToken hstart
  refine .scalar ?_ h
  rw [eq_cons_tail hc]
  exact gap_self hblank hslash

/-- A literal that starts like a token is what the reader of tokens makes of it. -/
theorem value?_of_startsToken {c : Char} (hc : startsToken c = true) :
    value? (c :: s) = (readScalar (c :: s)).map fun taken => (taken.value, taken.rest) := by
  obtain ⟨hblank, hslash⟩ := not_isBlank_of_startsToken hc
  have hskip : skip (c :: s) = .ok ⟨c :: s, Nat.le_refl _⟩ :=
    skip_eq_ok.2 (skipTrivia_of_gap (gap_self hblank hslash) (by simpa using hslash))
  have hbrace : c ≠ '\x7b' := ne_of_test hc rfl
  have hbracket : c ≠ '[' := ne_of_test hc rfl
  rw [value?, readValue, hskip]
  change Except.map _ (if h : some c = some '\x7b' then _ else _) = _
  rw [dif_neg (by simpa using hbrace), dif_neg (by simpa using hbracket)]
  rcases readScalar (c :: s) with stop | taken <;> rfl

/-- What is no number, although it starts like one, is no literal either. -/
theorem value?_of_badNumber {c : Char} {stop : Stop} (hc : isNumberStart c = true)
    (h : readNumber (c :: s) = .error stop) : value? (c :: s) = .error stop := by
  rw [value?_of_startsToken (by simp [startsToken, hc]), readScalar, ofChar?_eq_none (.inr hc)]
  dsimp only
  rw [if_pos hc]
  split
  · next h' =>
    cases h.symm.trans h'
    rfl
  · next h' => cases h.symm.trans h'

/-- **A number that the reader of numbers makes out is the literal there.** -/
theorem read_of_readNumber {c : Char} {x : Number} (hc : isNumberStart c = true)
    (h : readNumber (c :: s ++ t) = .ok (x, t)) :
    read (String.ofList (c :: s ++ t)) = .ok (.number x, byteLength (c :: s)) :=
  read_of_derives (String.toList_ofList ..) (derives_of_scalar (.number ⟨⟨c, rfl, hc⟩, h⟩))

theorem read_of_badNumber {c : Char} {fault : Fault} (hc : isNumberStart c = true)
    (h : readNumber (c :: s) = .error ⟨fault, c :: s⟩) :
    read (String.ofList (c :: s)) = .error ⟨fault.message, 0⟩ := by
  rw [read, String.toList_ofList, value?_of_badNumber hc h]
  simp [Stop.at]

end

end StaticSite.Literal

namespace StaticSite.Template

open Literal Text

/-! ## Reading expressions -/

variable {n : Nat} {s : List Char}

/-- A decimal with its sign is an integer to the reader of expressions, up to 64 bits. -/
theorem integer?_spelled (sign : Sign) (h : Spelled 10 s n)
    (hrange : IsInt64 (sign.apply n)) :
    integer? (sign.text ++ dropUnderscores s) = some (sign.apply n) := by
  have hsign : readSign (sign.text ++ dropUnderscores s) = (sign.isMinus, dropUnderscores s) := by
    obtain ⟨c, u, d, hcons, hd⟩ := h.exists_digits
    rw [hcons]
    exact readSign_text sign (isDigit_of_decimal hd) u
  rw [IsInt64, leastInt, Sign.apply] at hrange
  rw [integer?, hsign]
  simp only [h.natIn? (by omega), Option.bind_some]
  rw [Sign.apply]
  split at hrange
  · next hminus => rw [if_pos hminus, if_pos hminus, if_pos (by omega)]
  · next hplus => rw [if_neg hplus, if_neg hplus, if_pos (by omega)]

/-- What starts a number is neither a quote nor one of the words. -/
theorem evaluate?_integer {c : Char} (hc : isNumberStart c = true) {i : Int}
    (h : integer? (c :: s) = some i) (scope : Fields) :
    evaluate? scope (String.ofList (c :: s)) = some (.number (.int i)) := by
  have hne (d : Char) (hd : isNumberStart d = false) : c ≠ d := ne_of_test hc hd
  have hquoted : quoted? (c :: s) = none := by
    rw [quoted?, if_neg]
    rintro ⟨rfl | rfl | rfl, -⟩
    all_goals exact hne _ rfl rfl
  have hword (d : Char) (word : List Char) (hd : isNumberStart d = false) : c :: s ≠ d :: word :=
    fun heq => hne d hd (List.cons.inj heq).1
  have htrue : c :: s ≠ "true".toList := hword 't' ['r', 'u', 'e'] rfl
  have hfalse : c :: s ≠ "false".toList := hword 'f' ['a', 'l', 's', 'e'] rfl
  have hnull : c :: s ≠ "null".toList := hword 'n' ['u', 'l', 'l'] rfl
  have hconstant : constant? (c :: s) = none := by
    rw [constant?, if_neg htrue, if_neg hfalse, if_neg hnull]
  rw [evaluate?, String.toList_ofList]
  simp only [hquoted, hconstant, h]

/-- **A decimal without underscores is an integer in an expression, over all 64 bits.** -/
theorem evaluate?_spelled (sign : Sign) (h : Spelled 10 s n)
    (hrange : IsInt64 (sign.apply n)) (scope : Fields) :
    evaluate? scope (String.ofList (sign.text ++ dropUnderscores s)) =
      some (.number (.int (sign.apply n))) := by
  have hinteger := integer?_spelled sign h hrange
  obtain ⟨c, u, _, hcons, hdigit⟩ := h.exists_digits
  obtain ⟨d, v, hstart, hd⟩ := startsNumber_text sign (isDigit_of_decimal hdigit) u
  rw [hcons, hstart] at hinteger ⊢
  exact evaluate?_integer hd hinteger scope

end StaticSite.Template

namespace StaticSite.Literal

open Text

/-! ## The range of 64 bits -/

/-- Only one integer of 64 bits has a size beyond 63 bits. -/
theorem Sign.apply_cases {sign : Sign} {n : Nat} (hrange : IsInt64 (sign.apply n)) :
    n ≤ Number.greatestInt ∧ sign.apply n ≠ leastInt ∨
      sign = .minus ∧ n = Number.greatestInt + 1 := by
  rw [IsInt64] at hrange
  rw [leastInt] at hrange ⊢
  cases sign with
  | none | plus =>
    simp only [Sign.apply, Sign.isMinus, Bool.false_eq_true, if_false] at hrange ⊢
    omega
  | minus =>
    simp only [Sign.apply, Sign.isMinus, if_true, true_and] at hrange ⊢
    omega

/-- **Integers of 64 bits.** An integer is read as itself, whatever its base and its spelling, unless it
is the least one. That is read as a double if it is written in decimal, and is no literal in another
base. In an expression the decimal, written without underscores, is the integer in either case. -/
theorem read_integer (sign : Sign) {mark s t : List Char} {base n : Nat}
    (hmark : (mark, base) ∈ marks) (h : Spelled base s n)
    (hrange : IsInt64 (sign.apply n)) (ht : Ends t) :
    (read (String.ofList (sign.text ++ (mark ++ s) ++ t)) =
        .ok (.number (.int (sign.apply n)), byteLength (sign.text ++ (mark ++ s))) ↔
      sign.apply n ≠ leastInt) ∧
    (sign.apply n = leastInt → read (String.ofList (sign.text ++ (mark ++ s) ++ t)) =
      if mark = [] then .ok (.number (.double leastDouble), byteLength (sign.text ++ (mark ++ s)))
      else .error ⟨"invalid integer literal", 0⟩) ∧
    (mark = [] → ∀ scope,
      Template.evaluate? scope (String.ofList (sign.text ++ dropUnderscores s)) =
        some (.number (.int (sign.apply n)))) := by
  obtain ⟨hread, hfail⟩ := readNumber_integer sign hmark h ht
  have hexpression : mark = [] → ∀ scope,
      Template.evaluate? scope (String.ofList (sign.text ++ dropUnderscores s)) =
        some (.number (.int (sign.apply n))) := by
    rintro rfl
    obtain rfl : base = 10 := by simpa [marks] using hmark
    exact Template.evaluate?_spelled sign h hrange
  obtain ⟨c, u, hcons, hc⟩ := exists_digit hmark h
  obtain ⟨d, v, hstart, hd⟩ := startsNumber_text sign hc u
  rw [hcons, hstart] at hread hfail ⊢
  rcases Sign.apply_cases hrange with ⟨hn, hvalue⟩ | ⟨rfl, rfl⟩
  · have hok := read_of_readNumber hd (hread _ (integerValue?_of_le sign mark hn))
    exact ⟨⟨fun _ => hvalue, fun _ => hok⟩, fun heq => absurd heq hvalue, hexpression⟩
  · have hleast : read (String.ofList (d :: v ++ t)) =
        if mark = [] then .ok (.number (.double leastDouble), byteLength (d :: v))
        else .error ⟨"invalid integer literal", 0⟩ := by
      split
      · next hnil => exact read_of_readNumber hd (hread _ (by rw [integerValue?_least, if_pos hnil]))
      · next hne =>
        exact read_of_badNumber hd (hfail hne (by rw [integerValue?_least, if_neg hne]))
    refine ⟨⟨fun hok => ?_, fun hvalue => absurd rfl hvalue⟩, fun _ => hleast, hexpression⟩
    rw [hleast] at hok
    split at hok
    · cases hok
    · cases hok

theorem read_integer_hexadecimal :
    Spelled 16 "7fff_FFFF_ffff_FFFF_".toList 9223372036854775807 ∧
      IsInt64 (Sign.minus.apply 9223372036854775807) ∧ Ends [','] ∧
      read "-0X7fff_FFFF_ffff_FFFF_," = .ok (.number (.int (-9223372036854775807)), 23) := by
  have hmark : (['0', 'X'], 16) ∈ marks := by decide
  have hs : Spelled 16 "7fff_FFFF_ffff_FFFF_".toList 9223372036854775807 := by
    refine ⟨by decide, by decide, hexNumber?_eq_some.1 ?_⟩
    decide
  have hrange : IsInt64 (Sign.minus.apply 9223372036854775807) := by decide
  have ht : Ends [','] := by
    rintro _ ⟨⟩
    decide
  exact ⟨hs, hrange, ht, (read_integer .minus hmark hs hrange ht).1.2 (by decide)⟩

/-- The least integer in decimal is not read as an integer. -/
theorem read_integer_least :
    ¬ ∀ (sign : Sign) {mark s t : List Char} {base n : Nat}, (mark, base) ∈ marks →
      Spelled base s n → IsInt64 (sign.apply n) → Ends t →
      read (String.ofList (sign.text ++ (mark ++ s) ++ t)) =
        .ok (.number (.int (sign.apply n)), byteLength (sign.text ++ (mark ++ s))) := by
  intro h
  have hs : Spelled 10 "9223372036854775808".toList 9223372036854775808 := by
    refine ⟨by decide, by decide, ((natIn?_eq_some (by omega)).1 ?_).2⟩
    decide
  have ht : Ends [] := by
    rintro _ ⟨⟩
  have hdouble : readNumber "-9223372036854775808".toList = .ok (.double leastDouble, []) := by
    decide +kernel
  have hmark : ([], 10) ∈ marks := by decide
  have hread := h .minus hmark hs (by decide) ht
  have hother := read_of_readNumber (t := []) (c := '-') (s := "9223372036854775808".toList) rfl hdouble
  cases hread.symm.trans hother

end StaticSite.Literal
