import StaticSite.Data.Json
import StaticSite.Proofs.QuotedTexts
import StaticSite.Text.Word

/-!
# Reading what was printed

The compact JSON text of data is a literal, and the reader gives the data back. What the printer
writes is derived in the grammar: digits make the number that they write, an escape stands for its
character, and the commas stand where the grammar has them. So this is a case of what the reader
accepts (`read_json`). Only integers beyond 63 bits, and numbers behind which a text goes on, are
out of reach.
-/

namespace StaticSite.Literal

open Text

/-! ## Digits -/

section

variable {base n : Nat}

theorem digitsIn_go (base n : Nat) (acc : List Char) :
    digitsIn.go base n acc = digitsIn base n ++ acc := by
  induction n using Nat.strongRecOn generalizing acc with
  | _ n ih =>
    have hstep (acc : List Char) : digitsIn.go base n acc =
        if 2 ≤ base ∧ base ≤ n then digitsIn.go base (n / base) (digitChar (n % base) :: acc)
        else digitChar n :: acc := by
      rw [digitsIn.go]
      rfl
    rw [digitsIn, hstep, hstep []]
    split
    · next h =>
      have hlt : n / base < n := Nat.div_lt_self (by omega) (by omega)
      rw [ih _ hlt, ih _ hlt [_], List.append_assoc, List.singleton_append]
    · rfl

/-- A number below the base is a digit. -/
theorem digitsIn_of_lt (h : n < base) : digitsIn base n = [digitChar n] := by
  rw [digitsIn, digitsIn.go, dif_neg (by omega)]

/-- The last digit is the remainder. -/
theorem digitsIn_of_le (hbase : 2 ≤ base) (h : base ≤ n) :
    digitsIn base n = digitsIn base (n / base) ++ [digitChar (n % base)] := by
  rw [digitsIn, digitsIn.go, dif_pos ⟨hbase, h⟩, digitsIn_go]

/-- Numbers in a base, from the digits on by one more digit at a time. -/
theorem digitsIn_induction {motive : Nat → Prop} (base : Nat) (hbase : 2 ≤ base)
    (digit : ∀ n, n < base → motive n)
    (more : ∀ n, base ≤ n → motive (n / base) → motive n) (n : Nat) : motive n := by
  induction n using Nat.strongRecOn with
  | _ n ih =>
    by_cases h : n < base
    · exact digit n h
    · exact more n (by omega) (ih _ (Nat.div_lt_self (by omega) (by omega)))

theorem digitsIn_ne_nil : digitsIn base n ≠ [] := by
  rw [digitsIn, digitsIn.go]
  split
  · simp [digitsIn_go]
  · simp

theorem digits_digitsIn (hbase : 2 ≤ base) (n : Nat) : Digits base (digitsIn base n) n := by
  induction n using digitsIn_induction base hbase with
  | digit n hn =>
    rw [digitsIn_of_lt hn]
    simpa using Digits.concat .nil ⟨hn, .inl rfl⟩
  | more n hn ih =>
    have hmore := ih.concat ⟨Nat.mod_lt n (by omega), .inl rfl⟩
    rw [Nat.div_add_mod] at hmore
    rw [digitsIn_of_le hbase hn]
    exact hmore

/-- **Digits write their number.** -/
theorem spelled_digitsIn (hbase : 2 ≤ base) (hle : base ≤ 16) (n : Nat) :
    Spelled base (digitsIn base n) n := by
  have hdigits := digits_digitsIn hbase n
  have hplain : '_' ∉ digitsIn base n := hdigits.notMem hle (by decide)
  refine ⟨digitsIn_ne_nil, fun hhead => hplain (List.mem_of_mem_head? hhead), ?_⟩
  have htext : dropUnderscores (digitsIn base n) = digitsIn base n := by
    rw [dropUnderscores, List.filter_eq_self]
    intro c hc
    simpa using fun heq : c = '_' => hplain (heq ▸ hc)
  rw [htext]
  exact hdigits

end

/-! ## Integers -/

/-- A text that goes on with what separates or closes elements, or not at all. -/
def Apart (t : List Char) : Prop :=
  ∀ c, t.head? = some c → c = ',' ∨ c = ']' ∨ c = '\x7d'

section

variable {t : List Char}

theorem Apart.ends (h : Apart t) : Ends t := by
  intro c hc
  obtain rfl | rfl | rfl := h c hc
  all_goals decide

/-- An integer is written with a minus sign or none. -/
theorem intText_eq (i : Int) : ∃ sign : Sign,
    Number.intText i = sign.text ++ digitsIn 10 i.natAbs ∧ sign.apply i.natAbs = i := by
  rw [Number.intText]
  split
  · next hneg =>
    refine ⟨.minus, rfl, ?_⟩
    rw [Sign.apply, if_pos (by decide)]
    omega
  · next hneg =>
    refine ⟨.none, rfl, ?_⟩
    rw [Sign.apply, if_neg (by decide)]
    omega

/-- **Integers read back**, up to 63 bits. -/
theorem numeral_intText {i : Int} (hi : i.natAbs ≤ Number.greatestInt) (ht : Apart t) :
    Numeral (Number.intText i ++ t) (.int i) t := by
  obtain ⟨sign, htext, hvalue⟩ := intText_eq i
  have hspelled : Spelled 10 (digitsIn 10 i.natAbs) i.natAbs :=
    spelled_digitsIn (by omega) (by omega) i.natAbs
  have hmark : ([], 10) ∈ marks := by decide
  have hsize : integerValue? sign [] i.natAbs = some (.int i) := by
    rw [integerValue?_of_le sign [] hi, hvalue]
  have hread := (readNumber_integer sign hmark hspelled ht.ends).1 _ hsize
  obtain ⟨c, u, hcons, hc⟩ := exists_digit hmark hspelled
  obtain ⟨d, v, hstart, hd⟩ := startsNumber_text sign hc u
  rw [List.nil_append] at hread hcons
  rw [htext]
  refine ⟨⟨d, ?_, hd⟩, hread⟩
  rw [hcons, hstart]
  rfl

end

/-! ## Texts -/

section

variable {c : Char} {s text : List Char}

/-- A control character has two digits in hexadecimal, the first of which may be written as zero. -/
theorem padZero_hex {n : Nat} (h : n < 32) :
    padZero 4 (hex n) = ['0', '0', digitChar (n / 16), digitChar (n % 16)] := by
  rw [hex]
  by_cases hn : n < 16
  · rw [digitsIn_of_lt hn, Nat.div_eq_of_lt hn, Nat.mod_eq_of_lt hn]
    rfl
  · rw [digitsIn_of_le (by omega) (by omega), digitsIn_of_lt (n := n / 16) (by omega)]
    rfl

theorem digits_padZero {n : Nat} (h : n < 32) : Digits 16 (padZero 4 (hex n)) n := by
  have hzero : hexValue? '0' = some 0 := rfl
  have hfirst : hexValue? (digitChar (n / 16)) = some (n / 16) :=
    hexValue?_eq_some.2 ⟨by omega, .inl rfl⟩
  have hsecond : hexValue? (digitChar (n % 16)) = some (n % 16) :=
    hexValue?_eq_some.2 ⟨by omega, .inl rfl⟩
  rw [padZero_hex h, ← hexNumber?_eq_some]
  simp [hexNumber?, hzero, hfirst, hsecond, Nat.div_add_mod]

theorem escape_control (h : c.toNat < 32) : Escape ('u' :: padZero 4 (hex c.toNat)) [c] := by
  have hlength : (padZero 4 (hex c.toNat)).length = 4 := by rw [padZero_hex h]; rfl
  have hescape := Escape.unicode (digits_padZero h) hlength c.valid
  rwa [Char.ofNat_toNat] at hescape

theorem writes_pair {e : Char} (he : Escape [e] [c]) (h : Writes Escape .double s text) :
    Writes Escape .double (['\\', e] ++ s) (c :: text) := .escape he h

/-- **An escape stands for its character.** -/
theorem writes_jsonEscape (c : Char) (h : Writes Escape .double s text) :
    Writes Escape .double (jsonEscape c ++ s) (c :: text) := by
  rw [jsonEscape]
  split_ifs with hquote hslash hb hf hn hr ht hcontrol
  · subst hquote
    exact writes_pair (.self (by decide) (by decide) (by decide)) h
  · subst hslash
    exact writes_pair (.self (by decide) (by decide) (by decide)) h
  · subst hb
    exact writes_pair (.short (by decide)) h
  · subst hf
    exact writes_pair (.short (by decide)) h
  · subst hn
    exact writes_pair (.short (by decide)) h
  · subst hr
    exact writes_pair (.short (by decide)) h
  · subst ht
    exact writes_pair (.short (by decide)) h
  · exact .escape (escape_control hcontrol) h
  · exact .plain ⟨hquote, hslash, fun hc => absurd hc hn, by simp⟩ h

theorem writes_json (s : List Char) : Writes Escape .double (s.flatMap jsonEscape) s := by
  induction s with
  | nil => exact .nil
  | cons c s ih => exact writes_jsonEscape c ih

/-- **Texts read back**, whatever stands behind them. -/
theorem quoted_jsonQuote (s t : List Char) : Quoted .double (jsonQuote s ++ t) s t :=
  ⟨s.flatMap jsonEscape ++ '\x22' :: t, by simp [jsonQuote, Delimiter.char],
    readText_complete (writes_json s).read t⟩

end

/-! ## Values -/

/-- Data that JSON can tell: its numbers are integers of at most 63 bits besides their sign, and its
objects are made of any entries. -/
inductive Plain : Data → Prop where
  /-- no value -/
  | null : Plain .null
  /-- a truth value -/
  | bool {b : Bool} : Plain (.bool b)
  /-- an integer -/
  | int {i : Int} (size : i.natAbs ≤ Number.greatestInt) : Plain (.number (.int i))
  /-- any text -/
  | text {s : String} : Plain (.text s)
  /-- a list of such data -/
  | list {items : List Data} (inside : ∀ d ∈ items, Plain d) : Plain (.list items)
  /-- an object of entries with such data -/
  | object {entries : List (String × Data)} (inside : ∀ entry ∈ entries, Plain entry.2) :
      Plain (.object (Dict.ofList entries))

/-- Data whose text ends with a delimiter of its own. -/
def Enclosed : Data → Prop
  | .text _ | .list _ | .object _ => True
  | _ => False

section

variable {s t : List Char}

/-- Elements with commas between them. -/
def separated {α : Type} (write : α → List Char) : List α → List Char
  | [] => []
  | m :: ms => write m ++ ms.flatMap fun m => ',' :: write m

/-- A field as it is written. -/
def fieldText (field : String × Data) : List Char :=
  jsonQuote field.1.toList ++ ':' :: field.2.json

theorem jsonItems_eq (items : List Data) : Data.jsonItems items = separated Data.json items := by
  induction items with
  | nil => rfl
  | cons d items ih =>
    cases items with
    | nil => simp [Data.jsonItems, separated]
    | cons e items => simp [Data.jsonItems, separated, ih]

theorem jsonFields_eq (fields : Fields) : Data.jsonFields fields = separated fieldText fields := by
  induction fields with
  | nil => rfl
  | cons field fields ih =>
    cases fields with
    | nil => simp [Data.jsonFields, separated, fieldText]
    | cons e fields => simp [Data.jsonFields, separated, fieldText, ih]

theorem word_append {w : List Char} (hstart : ∃ c, w.head? = some c ∧ c.isDigit = false)
    (hinside : ∀ c ∈ w, isWordPart c = true) (ht : Apart t) : Word (w ++ t) w t := by
  refine ⟨rfl, hstart, hinside, ?_⟩
  intro c hc
  obtain rfl | rfl | rfl := ht c hc <;> decide

theorem derives_field {name : String} {d : Data} (ht : Apart t)
    (h : ∀ u, Apart u → Derives (.one .value) (d.json ++ u) d u) :
    Derives (.one .member) (fieldText (name, d) ++ t) (name, d) t := by
  have hkey := quoted_jsonQuote name.toList (':' :: d.json ++ t)
  have hmember : Derives (.one .member) (jsonQuote name.toList ++ (':' :: d.json ++ t))
      (String.ofList name.toList, d) t :=
    .member (gap_self (by decide) (by decide)) (.text (by decide) hkey)
      (gap_self (by decide) (by decide)) (h t ht)
  rw [String.ofList_toList] at hmember
  rw [fieldText, List.append_assoc]
  exact hmember

section

variable {e : Element} {write : e.Meaning → List Char} {ms : List e.Meaning} {u : List Char}

theorem apart_flatMap (hu : Apart u) : Apart (ms.flatMap (fun m => ',' :: write m) ++ u) := by
  cases ms with
  | nil => exact hu
  | cons m ms =>
    rintro c hc
    cases hc
    exact .inl rfl

theorem derives_more (hu : Apart u)
    (h : ∀ m ∈ ms, ∀ t, Apart t → Derives (.one e) (write m ++ t) m t) :
    Derives (.more e) (ms.flatMap (fun m => ',' :: write m) ++ u) ms u := by
  induction ms with
  | nil => exact .last
  | cons m ms ih =>
    rw [List.flatMap_cons, List.append_assoc]
    refine .next (gap_self (by decide) (by decide)) (h m List.mem_cons_self _ (apart_flatMap hu)) ?_
    exact ih fun m hm => h m (List.mem_cons_of_mem _ hm)

/-- The commas stand where a listing has them. -/
theorem derives_separated (hu : Apart u)
    (h : ∀ m ∈ ms, ∀ t, Apart t → Derives (.one e) (write m ++ t) m t) :
    Derives (.listing e) (separated write ms ++ u) ms u := by
  cases ms with
  | nil => exact .empty
  | cons m ms =>
    rw [separated, List.append_assoc]
    refine .some (h m List.mem_cons_self _ (apart_flatMap hu)) ?_ (.inl rfl)
    exact derives_more hu fun m hm => h m (List.mem_cons_of_mem _ hm)

end

/-- **What the printer writes is derived in the grammar.** -/
theorem derives_json {v : Data} (h : Plain v) (ht : Enclosed v ∨ Apart t) :
    Derives (.one .value) (v.json ++ t) v t := by
  induction h generalizing t with
  | null =>
    have hword := word_append (w := "null".toList) ⟨'n', rfl, rfl⟩
      (List.all_eq_true.1 (by decide)) (ht.resolve_left id)
    exact derives_of_scalar (.null hword)
  | @bool b =>
    have hword := word_append (w := (if b then "true" else "false").toList) (t := t)
      (by cases b <;> exact ⟨_, rfl, rfl⟩) (List.all_eq_true.1 (by cases b <;> decide))
      (ht.resolve_left id)
    have htext : (Data.bool b).json = (if b then "true" else "false").toList := by
      cases b <;> rfl
    rw [htext]
    exact derives_of_scalar (.bool hword)
  | int size => exact derives_of_scalar (.number (numeral_intText size (ht.resolve_left id)))
  | @text s =>
    have htext := Scalar.text (quoted_jsonQuote s.toList t)
    rw [String.ofList_toList] at htext
    exact derives_of_scalar htext
  | @list items inside ih =>
    have hclosing : Apart (']' :: t) := by
      intro c hc
      cases hc
      exact .inr (.inl rfl)
    have hitems : Derives (.listing .value) (separated Data.json items ++ ']' :: t) items
        (']' :: t) :=
      derives_separated hclosing fun d hd u hu => ih d hd (.inr hu)
    have htext : (Data.list items).json ++ t = '[' :: (separated Data.json items ++ ']' :: t) := by
      simp [Data.json, jsonItems_eq]
    rw [htext]
    exact .list (gap_self (by decide) (by decide)) hitems (gap_self (by decide) (by decide))
  | @object entries inside ih =>
    have hclosing : Apart ('\x7d' :: t) := by
      intro c hc
      cases hc
      exact .inr (.inr rfl)
    have hfields : Derives (.listing .member)
        (separated fieldText (Dict.ofList entries) ++ '\x7d' :: t) (Dict.ofList entries)
        ('\x7d' :: t) :=
      derives_separated hclosing fun field hf u hu => derives_field hu fun w hw =>
        ih field (Dict.mem_of_mem_ofList hf) (.inr hw)
    have hobject := Derives.object (gap_self (by decide) (by decide)) hfields
      (gap_self (by decide) (by decide))
    rw [Dict.ofList_ofList] at hobject
    have htext : (Data.object (Dict.ofList entries)).json ++ t =
        '\x7b' :: (separated fieldText (Dict.ofList entries) ++ '\x7d' :: t) := by
      simp [Data.json, jsonFields_eq]
    rw [htext]
    exact hobject

end

/-- **Reading inverts printing.** The JSON text of plain data is read as that data, to the last byte
of the text. Behind a text, a list or an object anything may follow. -/
theorem read_json {v : Data} {t : List Char} (h : Plain v) (ht : Enclosed v ∨ t = []) :
    read (String.ofList (v.json ++ t)) = .ok (v, byteLength v.json) := by
  refine read_of_derives (String.toList_ofList) (derives_json h ?_)
  refine ht.imp_right ?_
  rintro rfl c hc
  cases hc

/-- An object with a name that needs an escape, the least integer, and control characters. -/
def escapedData : Data :=
  .object (Dict.ofList
    [("é", .text "\x01\n\t/\x1f"),
      ("a\"b\\c", .list [.number (.int (-9223372036854775807)), .bool true, .null])])

theorem read_json_escapedData : Plain escapedData ∧ Enclosed escapedData ∧
    read (String.ofList (escapedData.json ++ ", rest".toList)) =
      .ok (escapedData, byteLength escapedData.json) := by
  have hlist : Plain (.list [.number (.int (-9223372036854775807)), .bool true, .null]) := by
    refine .list ?_
    simp only [List.mem_cons, List.not_mem_nil, or_false]
    rintro d (rfl | rfl | rfl)
    · exact .int (by decide)
    · exact .bool
    · exact .null
  have hplain : Plain escapedData := by
    refine .object ?_
    simp only [List.mem_cons, List.not_mem_nil, or_false]
    rintro entry (rfl | rfl)
    · exact .text
    · exact hlist
  exact ⟨hplain, trivial, read_json hplain (.inl trivial)⟩

end StaticSite.Literal
