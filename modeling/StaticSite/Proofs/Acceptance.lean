import StaticSite.Proofs.Readers

/-!
# What the reader of literals accepts

The reader takes from a text what the grammar derives and gives the data that this denotes. One
direction follows the readers, from one call to the calls that it makes; the other is an induction
over the derivation, with `Accepted` as what a symbol makes the readers do. `read_iff_derives` puts
both together.
-/

namespace StaticSite.Literal

open Text

/-! ## Elements and listings in general -/

/-- An element as its reader gives it. -/
def GivesOne : (e : Element) → List Char → e.Meaning → List Char → Prop
  | .value, s, v, r => Gives (readValue s) v r
  | .member, s, m, r => GivesMember s m r

/-- The reader of a listing. -/
def readListing : (e : Element) → (s : List Char) → Except Stop (Taken (List e.Meaning) s)
  | .value => readItems
  | .member => readMembers

section

variable {s t u r : List Char} {e : Element}

/-- A listing ends at once or has an element. -/
theorem readListing_iff {ms : List e.Meaning} : Gives (readListing e s) ms r ↔
    (skipTrivia s = .ok (e.closing :: r) ∧ ms = []) ∨
      ∃ m t, GivesOne e s m t ∧
        ∃ ms', GivesMore e.closing (readListing e) t ms' r ∧ ms = m :: ms' := by
  cases e with
  | value => exact readItems_iff
  | member => exact readMembers_iff

theorem GivesOne.length_lt {m : e.Meaning} (h : GivesOne e s m r) : r.length < s.length := by
  cases e with
  | value => exact Gives.length_lt h
  | member =>
    obtain ⟨t, u, w, key, v, ht, hkey, hu, hv, -⟩ := h
    have := length_of_skipTrivia ht
    have := hkey.length_lt
    have := length_of_skipTrivia hu
    have := hv.length_lt
    simp only [List.length_cons] at *
    omega

theorem Element.closing_ne_slash : (e.closing :: r).head? ≠ some '/' := by
  cases e <;> simp [Element.closing]

/-! ## What is read is derived -/

/-- What could be a listing behind a comma goes on with the listing in front of it. -/
theorem Derives.behind_comma {ms : List e.Meaning} (h : Derives (.listing e) t ms r)
    (comma : Gap s (',' :: t)) : ∃ u, Derives (.more e) s ms u ∧ (r = u ∨ Gap u (',' :: r)) := by
  cases h with
  | empty => exact ⟨s, .last, .inr comma⟩
  | some first others last => exact ⟨_, .next comma first others, last⟩

mutual

theorem derives_value {s : List Char} {v : Data} {r : List Char} (h : Gives (readValue s) v r) :
    Derives (.one .value) s v r := by
  obtain ⟨t, ht, h⟩ := readValue_iff.1 h
  have hlength := length_of_skipTrivia ht
  have hgap := gap_of_skipTrivia ht
  obtain htoken | ⟨u, vs, rfl, hlist, rfl⟩ | ⟨u, ms, rfl, hobject, rfl⟩ := h
  · exact .scalar hgap htoken
  · obtain ⟨w, hitems, hclosing⟩ := derives_listing .value hlist
    exact .list hgap hitems hclosing
  · obtain ⟨w, hmembers, hclosing⟩ := derives_listing .member hobject
    exact .object hgap hmembers hclosing
termination_by 3 * s.length
decreasing_by all_goals simp only [List.length_cons] at hlength; omega

theorem derives_member {s : List Char} {m : String × Data} {r : List Char}
    (h : GivesMember s m r) : Derives (.one .member) s m r := by
  obtain ⟨t, u, w, key, v, ht, hkey, hu, hv, rfl⟩ := h
  have hw : w.length < s.length := by
    have := length_of_skipTrivia ht
    have := hkey.length_lt
    have := length_of_skipTrivia hu
    simp only [List.length_cons] at this
    omega
  exact .member (gap_of_skipTrivia ht) (readKey_iff.1 hkey) (gap_of_skipTrivia hu) (derives_value hv)
termination_by 3 * s.length + 1

theorem derives_listing (e : Element) {s : List Char} {ms : List e.Meaning} {r : List Char}
    (h : Gives (readListing e s) ms r) :
    ∃ u, Derives (.listing e) s ms u ∧ Gap u (e.closing :: r) := by
  obtain ⟨hs, rfl⟩ | ⟨m, t, hm, ms', hmore, rfl⟩ := readListing_iff.1 h
  · exact ⟨s, .empty, gap_of_skipTrivia hs⟩
  · have hone : Derives (.one e) s m t := by
      cases e with
      | value => exact derives_value hm
      | member => exact derives_member hm
    have ht := hm.length_lt
    obtain ⟨hclose, rfl⟩ | ⟨w, hcomma, hlisting⟩ := hmore
    · exact ⟨t, .some hone .last (.inl rfl), gap_of_skipTrivia hclose⟩
    · have hw := length_of_skipTrivia hcomma
      obtain ⟨u, hrest, hclosing⟩ := derives_listing e hlisting
      obtain ⟨x, hothers, hlast⟩ := hrest.behind_comma (gap_of_skipTrivia hcomma)
      exact ⟨u, .some hone hothers hlast, hclosing⟩
termination_by 3 * s.length + 2
decreasing_by all_goals simp only [List.length_cons] at *; omega

end

/-! ## What is derived is read -/

/-- What the readers do where a symbol of the grammar stands. -/
def Accepted : (x : Symbol) → List Char → x.Meaning → List Char → Prop
  | .one e, s, m, r => GivesOne e s m r
  | .more e, s, ms, r =>
    ∀ u q, (u = r ∨ Gap r (',' :: u)) → Gap u (e.closing :: q) → GivesMore e.closing (readListing e) s ms q
  | .listing e, s, ms, r => ∀ q, Gap r (e.closing :: q) → Gives (readListing e s) ms q

theorem Derives.accepted {x : Symbol} {m : x.Meaning} (h : Derives x s m r) :
    Accepted x s m r := by
  induction h with
  | scalar gap token =>
    have hslash := head?_ne_of_startsToken token.startsToken (c := '/') rfl
    exact readValue_iff.2 ⟨_, skipTrivia_of_gap gap hslash, .inl token⟩
  | list opening items closing ih =>
    have hopening := skipTrivia_of_gap opening (by simp)
    exact readValue_iff.2 ⟨_, hopening, .inr (.inl ⟨_, _, rfl, ih _ closing, rfl⟩)⟩
  | object opening members closing ih =>
    have hopening := skipTrivia_of_gap opening (by simp)
    exact readValue_iff.2 ⟨_, hopening, .inr (.inr ⟨_, _, rfl, ih _ closing, rfl⟩)⟩
  | member gap name colon value ih =>
    have hslash := head?_ne_of_startsToken name.startsToken (c := '/') rfl
    exact ⟨_, _, _, _, _, skipTrivia_of_gap gap hslash, readKey_iff.2 name,
      skipTrivia_of_gap colon (by simp), ih, rfl⟩
  | empty =>
    intro q closing
    exact readListing_iff.2 (.inl ⟨skipTrivia_of_gap closing Element.closing_ne_slash, rfl⟩)
  | some first others comma ihfirst ihothers =>
    intro q closing
    exact readListing_iff.2 (.inr ⟨_, _, ihfirst, _, ihothers _ _ comma closing, rfl⟩)
  | last =>
    intro u q comma closing
    have hclosing := skipTrivia_of_gap closing Element.closing_ne_slash
    obtain rfl | comma := comma
    · exact .inl ⟨hclosing, rfl⟩
    · exact .inr ⟨u, skipTrivia_of_gap comma (by simp), readListing_iff.2 (.inl ⟨hclosing, rfl⟩)⟩
  | next comma one others ihone ihothers =>
    intro u q last closing
    have hothers := ihothers u q last closing
    exact .inr ⟨_, skipTrivia_of_gap comma (by simp),
      readListing_iff.2 (.inr ⟨_, _, ihone, _, hothers, rfl⟩)⟩

/-- The reader of an element takes what the grammar derives. -/
theorem givesOne_iff {m : e.Meaning} : GivesOne e s m r ↔ Derives (.one e) s m r := by
  refine ⟨fun h => ?_, Derives.accepted⟩
  cases e with
  | value => exact derives_value h
  | member => exact derives_member h

/-- The reader of a listing takes it together with what closes it. -/
theorem closes_iff {ms : List e.Meaning} : Closes e s ms r ↔ Gives (readListing e s) ms r := by
  constructor
  · rintro ⟨u, h, closing⟩
    exact h.accepted r closing
  · exact derives_listing e

theorem value?_eq_ok {v : Data} : value? s = .ok (v, r) ↔ Gives (readValue s) v r := by
  rw [value?]
  rcases readValue s with stop | ⟨v', r', h⟩
  · constructor
    · intro h
      cases h
    · exact fun h => absurd h not_gives_error
  · rw [gives_ok]
    constructor
    · intro h
      cases h
      exact ⟨rfl, rfl⟩
    · rintro ⟨rfl, rfl⟩
      rfl

/-! ## What is not accepted -/

/-- The first character of an element, behind the gap. -/
theorem GivesOne.start {m : e.Meaning} (h : GivesOne e s m r) : ∃ c t, skipTrivia s = .ok (c :: t) ∧
    c ≠ e.closing ∧ c ≠ ',' := by
  cases e with
  | value =>
    obtain ⟨t, ht, h⟩ := readValue_iff.1 h
    obtain htoken | ⟨u, vs, rfl, -⟩ | ⟨u, ms, rfl, -⟩ := h
    · obtain ⟨c, hc, hstart⟩ := htoken.startsToken
      refine ⟨c, t.tail, ht.trans (congrArg _ (eq_cons_tail hc)), ?_, ?_⟩
      · rintro rfl
        cases hstart
      · rintro rfl
        cases hstart
    · exact ⟨_, _, ht, by decide, by decide⟩
    · exact ⟨_, _, ht, by decide, by decide⟩
  | member =>
    obtain ⟨t, u, w, key, v, ht, hkey, -⟩ := h
    obtain ⟨c, hc, hstart⟩ := (readKey_iff.1 hkey).startsToken
    refine ⟨c, t.tail, ht.trans (congrArg _ (eq_cons_tail hc)), ?_, ?_⟩
    · rintro rfl
      cases hstart
    · rintro rfl
      cases hstart

theorem Gives.unique {α : Type} {x : Except Stop (Taken α s)} {v v' : α} {r' : List Char}
    (h : Gives x v r) (h' : Gives x v' r') : v = v' ∧ r = r' := by
  obtain ⟨a, ha, rfl, rfl⟩ := h
  obtain ⟨b, hb, rfl, rfl⟩ := h'
  cases ha.symm.trans hb
  exact ⟨rfl, rfl⟩

theorem GivesOne.unique {m m' : e.Meaning} {r' : List Char} (h : GivesOne e s m r)
    (h' : GivesOne e s m' r') : m = m' ∧ r = r' := by
  cases e with
  | value => exact Gives.unique h h'
  | member =>
    obtain ⟨t, u, w, key, v, ht, hkey, hu, hv, rfl⟩ := h
    obtain ⟨t', u', w', key', v', ht', hkey', hu', hv', rfl⟩ := h'
    cases ht.symm.trans ht'
    obtain ⟨rfl, rfl⟩ := hkey.unique hkey'
    cases hu.symm.trans hu'
    obtain ⟨rfl, rfl⟩ := hv.unique hv'
    exact ⟨rfl, rfl⟩

/-- No element is foreign. -/
theorem GivesOne.not_foreign {m : e.Meaning} (h : GivesOne e s m r) : ¬ Foreign e s := by
  intro hforeign
  cases hforeign with
  | comma gap =>
    obtain ⟨c, t, hs, -, hcomma⟩ := h.start
    cases hs.symm.trans (skipTrivia_of_gap gap (by simp))
    exact hcomma rfl
  | spread gap =>
    have hs := skipTrivia_of_gap gap (by simp)
    cases e with
    | value =>
      obtain ⟨t, ht, -, hspread, -⟩ := start_of_readValue h
      cases ht.symm.trans hs
      cases hspread
    | member =>
      obtain ⟨t, u, w, key, v, ht, hkey, -⟩ := h
      cases ht.symm.trans hs
      exact not_gives_error hkey
  | computed gap =>
    obtain ⟨t, u, w, key, v, ht, hkey, -⟩ := h
    cases ht.symm.trans (skipTrivia_of_gap gap (by simp))
    exact not_gives_error hkey
  | unmarked gap name behind colon =>
    obtain ⟨t, u, w, key, v, ht, hkey, hu, -⟩ := h
    have hslash := head?_ne_of_startsToken name.startsToken (c := '/') rfl
    cases ht.symm.trans (skipTrivia_of_gap gap hslash)
    obtain ⟨rfl, rfl⟩ := hkey.unique (readKey_iff.2 name)
    have hw := (gap_iff.1 behind).symm.trans (gap_iff.1 (gap_of_skipTrivia hu))
    exact colon (by rw [hw]; rfl)

/-- What is foreign does not close a listing either. -/
theorem Foreign.not_closing (h : Foreign e s) : skipTrivia s ≠ .ok (e.closing :: r) := by
  intro hs
  cases h with
  | comma gap | spread gap =>
    have hhead := Except.ok.inj (hs.symm.trans (skipTrivia_of_gap gap (by simp)))
    cases e <;> cases hhead
  | computed gap => cases hs.symm.trans (skipTrivia_of_gap gap (by simp))
  | unmarked gap name =>
    have hslash := head?_ne_of_startsToken name.startsToken (c := '/') rfl
    cases hs.symm.trans (skipTrivia_of_gap gap hslash)
    exact head?_ne_of_startsToken name.startsToken (c := '\x7d') rfl rfl

/-- **What stands in a listing.** It does not start with anything foreign, and behind its first
element it ends, or goes on behind a comma as a listing that ends in the same place. -/
theorem Closes.cases {ms : List e.Meaning} (h : Closes e s ms r) : ¬ Foreign e s ∧
    ∀ m t, Derives (.one e) s m t → (Gap t (e.closing :: r) ∧ ms = [m]) ∨
      ∃ u ms', Gap t (',' :: u) ∧ Closes e u ms' r ∧ ms = m :: ms' := by
  obtain ⟨hs, rfl⟩ | ⟨m', t', hone, ms', hmore, rfl⟩ := readListing_iff.1 (closes_iff.1 h)
  · refine ⟨fun hforeign => hforeign.not_closing hs, ?_⟩
    intro m t hm
    obtain ⟨c, u, hc, hclosing, -⟩ := (givesOne_iff.2 hm).start
    cases hs.symm.trans hc
    exact absurd rfl hclosing
  · refine ⟨hone.not_foreign, ?_⟩
    intro m t hm
    obtain ⟨rfl, rfl⟩ := (givesOne_iff.2 hm).unique hone
    obtain ⟨hclose, rfl⟩ | ⟨u, hcomma, hlisting⟩ := hmore
    · exact .inl ⟨gap_of_skipTrivia hclose, rfl⟩
    · exact .inr ⟨u, ms', gap_of_skipTrivia hcomma, closes_iff.2 hlisting, rfl⟩

end

/-- What is derived from a value is read, whatever stands behind it. -/
theorem read_of_derives {src : String} {v : Data} {taken rest : List Char}
    (hsrc : src.toList = taken ++ rest) (h : Derives (.one .value) (taken ++ rest) v rest) :
    read src = .ok (v, byteLength taken) := by
  rw [read, hsrc, value?_eq_ok.2 (givesOne_iff (e := .value).2 h)]
  simp only [byteLength_append, Nat.add_sub_cancel]

/-- **The reader accepts exactly the grammar.** It gives a value and an offset if and only if the
characters in front of this offset, with what stands behind them, are derived from a value, and it
gives the value that they denote. In an object the last member of a name stays. Nothing foreign
starts a listing, and no element follows another one without a comma between them. -/
theorem read_iff_derives (src : String) :
    (∀ v last, read src = .ok (v, last) ↔
      ∃ taken rest, src.toList = taken ++ rest ∧ byteLength taken = last ∧
        Derives (.one .value) (taken ++ rest) v rest) ∧
    (∀ ms name, Dict.get? name (Dict.ofList ms : Fields) =
      (ms.reverse.find? fun m => m.1 = name).map Prod.snd) ∧
    ∀ e s ms rest, Closes e s ms rest → ¬ Foreign e s ∧
      ∀ m t, Derives (.one e) s m t → (Gap t (e.closing :: rest) ∧ ms = [m]) ∨
        ∃ u ms', Gap t (',' :: u) ∧ Closes e u ms' rest ∧ ms = m :: ms' := by
  refine ⟨?_, Dict.get?_ofList_eq_find?, fun e s ms rest h => h.cases⟩
  intro v last
  constructor
  · intro h
    rw [read] at h
    split at h
    · next hvalue =>
      cases h
      obtain ⟨taken, htaken⟩ := (leaves_value? _).of_ok hvalue
      refine ⟨taken, _, htaken.symm, ?_, ?_⟩
      · rw [← htaken, byteLength_append, Nat.add_sub_cancel]
      · rw [htaken]
        exact givesOne_iff.1 (value?_eq_ok.1 hvalue)
    · cases h
  · rintro ⟨taken, rest, hsrc, rfl, h⟩
    exact read_of_derives hsrc h

end StaticSite.Literal
