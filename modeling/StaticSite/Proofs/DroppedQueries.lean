import StaticSite.Proofs.EncodedNames

/-!
# Queries

A query or a fragment starts at a mark, a question mark or a number sign (`IsMark`). A URL is decoded as
a whole before it is cut there, so what is behind the mark takes part in the decoding. The mark is no
hexadecimal digit, so no escape reaches over it, and the bytes of a URL are those of its two parts with
the mark between them (`decodeBytes_append_mark`). In UTF-8 the mark is a byte of its own, which no other
character has among its bytes. So the whole is a text exactly if both parts are (`decode?_append_mark`),
and cutting it gives what cutting the first part gives (`path?_append_mark`).

Every query is dropped but those whose escapes spell no text: these make the request fail
(`query_dropped_iff`).
-/

namespace StaticSite.Request

open Text Literal

/-- A character with which a query or a fragment starts. -/
def IsMark (c : Char) : Prop := c = '?' ∨ c = '#'

theorem hexValue?_of_isMark {mark : Char} (h : IsMark mark) : hexValue? mark = none := by
  rcases h with rfl | rfl <;> rfl

/-- A mark is one byte. -/
theorem IsMark.exists_byte {mark : Char} (h : IsMark mark) :
    ∃ b, String.utf8EncodeChar mark = [b] := by
  rcases h with rfl | rfl
  · exact ⟨63, by decide⟩
  · exact ⟨35, by decide⟩

/-! ## Escapes in front of a mark -/

/-- A text that starts with a percent sign and two hexadecimal digits. -/
def StartsEscape (s : List Char) : Prop :=
  ∃ a b t m n, s = '%' :: a :: b :: t ∧ hexValue? a = some m ∧ hexValue? b = some n

/-- What starts no escape stands for itself. -/
theorem decodeBytes_plain {c : Char} {s : List Char} (h : ¬StartsEscape (c :: s)) :
    decodeBytes (c :: s) = String.utf8EncodeChar c ++ decodeBytes s := by
  by_cases htwo : ∃ a b t, c = '%' ∧ s = a :: b :: t
  · obtain ⟨a, b, t, rfl, rfl⟩ := htwo
    have hpercent : String.utf8EncodeChar '%' = ['%'.toUInt8] := by decide
    rw [decodeBytes, hpercent]
    split
    · next m n ha hb => exact absurd ⟨a, b, t, m, n, rfl, ha, hb⟩ h
    · rfl
  · have hbytes : (String.singleton c).toUTF8.toList = String.utf8EncodeChar c := by
      rw [toList_toUTF8, bytesOf, String.toList_singleton, List.flatMap_singleton]
    rw [decodeBytes, hbytes]
    exact fun a b t hc hs => htwo ⟨a, b, t, hc, hs⟩

variable {mark : Char} {s t : List Char}

/-- An escape does not reach over a mark. -/
theorem StartsEscape.of_append (hmark : IsMark mark) {c : Char}
    (h : StartsEscape (c :: (s ++ mark :: t))) : StartsEscape (c :: s) := by
  obtain ⟨a, b, u, m, n, heq, ha, hb⟩ := h
  obtain ⟨rfl, heq⟩ := List.cons.inj heq
  rcases s with _ | ⟨a', _ | ⟨b', s⟩⟩
  · cases heq
    rw [hexValue?_of_isMark hmark] at ha
    cases ha
  · cases heq
    rw [hexValue?_of_isMark hmark] at hb
    cases hb
  · cases heq
    exact ⟨a, b, s, m, n, rfl, ha, hb⟩

/-- The bytes around a mark are decoded apart. -/
theorem decodeBytes_append_mark (hmark : IsMark mark) (s t : List Char) :
    decodeBytes (s ++ mark :: t) =
      decodeBytes s ++ (String.utf8EncodeChar mark ++ decodeBytes t) := by
  have hplain : ∀ {c : Char} {s : List Char}, ¬StartsEscape (c :: s) →
      decodeBytes (s ++ mark :: t) =
        decodeBytes s ++ (String.utf8EncodeChar mark ++ decodeBytes t) →
      decodeBytes (c :: s ++ mark :: t) =
        decodeBytes (c :: s) ++ (String.utf8EncodeChar mark ++ decodeBytes t) := by
    intro c s hs ih
    rw [decodeBytes_plain hs, List.append_assoc, ← ih, List.cons_append,
      decodeBytes_plain fun h => hs (h.of_append hmark)]
  induction s using decodeBytes.induct with
  | case1 =>
    refine decodeBytes_cons ?_ t
    rintro rfl
    rcases hmark with h | h <;> cases h
  | case2 a b s m n hb ha ih => simp only [List.cons_append, decodeBytes, ha, hb, ih]
  | case3 a b s hnot ih =>
    refine hplain ?_ ih
    rintro ⟨_, _, _, m, n, ⟨⟩, ha, hb⟩
    exact hnot m n ha hb
  | case4 c s hnot ih =>
    refine hplain ?_ ih
    rintro ⟨a, b, t, m, n, heq, -, -⟩
    obtain ⟨hc, hs⟩ := List.cons.inj heq
    exact hnot a b t hc hs

/-! ## Texts around a mark -/

theorem mk_toArray (bytes : List UInt8) : (⟨bytes.toArray⟩ : ByteArray) = bytes.toByteArray :=
  ByteArray.ext (Array.ext' List.toList_data_toByteArray.symm)

/-- Bytes are UTF-8 if they are those of a text. -/
theorem isValidUTF8_iff {bytes : List UInt8} :
    bytes.toByteArray.IsValidUTF8 ↔ ∃ s, bytes = bytesOf s := by
  constructor
  · rintro ⟨s, hs⟩
    have hlist := congrArg (fun array => array.data.toList) hs
    rw [List.toList_data_toByteArray] at hlist
    exact ⟨s, hlist.trans List.toList_data_toByteArray⟩
  · rintro ⟨s, rfl⟩
    exact ⟨s, rfl⟩

theorem decode?_eq_some {url text : String} :
    decode? url = some text ↔ decodeBytes url.toList = bytesOf text.toList := by
  constructor
  · intro h
    have hvalid : (decodeBytes url.toList).toByteArray.IsValidUTF8 := by
      by_contra hnot
      rw [decode?, mk_toArray, String.fromUTF8?, dif_neg hnot] at h
      cases h
    obtain ⟨s, hs⟩ := isValidUTF8_iff.1 hvalid
    rw [decode?, hs, fromUTF8?_bytesOf] at h
    cases h
    rw [hs, String.toList_ofList]
  · intro h
    rw [decode?, h, fromUTF8?_bytesOf, String.ofList_toList]

/-- A byte that starts a character parts a text. -/
theorem exists_of_bytesOf_eq {front behind : List UInt8} {b : UInt8} (hb : b.IsUTF8FirstByte)
    (h : bytesOf s = front ++ b :: behind) :
    ∃ t u, bytesOf t = front ∧ bytesOf u = b :: behind := by
  induction s generalizing front with
  | nil => simp [bytesOf] at h
  | cons c s ih =>
    rw [bytesOf_cons] at h
    rcases List.append_eq_append_iff.1 h with ⟨more, rfl, hmore⟩ | ⟨more, hc, hmore⟩
    · obtain ⟨t, u, rfl, hu⟩ := ih hmore
      exact ⟨c :: t, u, bytesOf_cons c t, hu⟩
    · rcases more with _ | ⟨b', more⟩
      · rw [List.append_nil] at hc
        exact ⟨[c], s, by rw [bytesOf, List.flatMap_singleton, hc], hmore.symm⟩
      · obtain ⟨rfl, -⟩ := List.cons.inj hmore
        -- the byte is one of `c`, and the only one of these that starts a character is the first
        have hlt : front.length < (String.utf8EncodeChar c).length := by simp [hc]
        have hget : (String.utf8EncodeChar c)[front.length] = b := by simp [hc]
        have hzero := UInt8.isUTF8FirstByte_getElem_utf8EncodeChar.1 (hget.symm ▸ hb)
        obtain rfl := List.length_eq_zero_iff.1 hzero
        exact ⟨[], c :: s, rfl, by rw [bytesOf_cons]; exact h⟩

/-- What stands around a mark in a text is text. -/
theorem exists_of_bytesOf_eq_mark (hmark : IsMark mark) {front behind : List UInt8}
    (h : bytesOf s = front ++ (String.utf8EncodeChar mark ++ behind)) :
    ∃ t u, front = bytesOf t ∧ behind = bytesOf u := by
  obtain ⟨b, hbyte⟩ := hmark.exists_byte
  have hfirst := UInt8.isUTF8FirstByte_getElem_zero_utf8EncodeChar (c := mark)
  simp only [hbyte] at hfirst
  rw [hbyte, List.singleton_append] at h
  obtain ⟨t, u, ht, hu⟩ := exists_of_bytesOf_eq hfirst h
  have hvalid : behind.toByteArray.IsValidUTF8 := by
    rw [← ByteArray.isValidUTF8_utf8Encode_singleton_append_iff (c := mark),
      List.utf8Encode_singleton, hbyte, ← List.toByteArray_append, isValidUTF8_iff]
    exact ⟨u, hu.symm⟩
  obtain ⟨v, hv⟩ := isValidUTF8_iff.1 hvalid
  exact ⟨t, v, ht.symm, hv⟩

/-- A URL with a mark spells a text exactly if both parts of it do, and then theirs. -/
theorem decode?_append_mark (hmark : IsMark mark) (p q : String) :
    decode? (p ++ String.singleton mark ++ q) =
      (decode? p).bind fun before => (decode? q).map fun behind =>
        before ++ String.singleton mark ++ behind := by
  have hbytes : decodeBytes (p ++ String.singleton mark ++ q).toList =
      decodeBytes p.toList ++ (String.utf8EncodeChar mark ++ decodeBytes q.toList) := by
    rw [← decodeBytes_append_mark hmark]
    simp
  have hwhole : ∀ before behind, decode? p = some before → decode? q = some behind →
      decode? (p ++ String.singleton mark ++ q) =
        some (before ++ String.singleton mark ++ behind) := by
    intro before behind hbefore hbehind
    rw [decode?_eq_some] at hbefore hbehind ⊢
    rw [hbytes, hbefore, hbehind]
    simp [bytesOf]
  ext text
  simp only [Option.bind_eq_some_iff, Option.map_eq_some_iff]
  constructor
  · intro h
    obtain ⟨t, u, ht, hu⟩ :=
      exists_of_bytesOf_eq_mark hmark ((decode?_eq_some.1 h).symm.trans hbytes)
    have hbefore : decode? p = some (String.ofList t) :=
      decode?_eq_some.2 (by rw [ht, String.toList_ofList])
    have hbehind : decode? q = some (String.ofList u) :=
      decode?_eq_some.2 (by rw [hu, String.toList_ofList])
    rw [hwhole _ _ hbefore hbehind] at h
    exact ⟨_, hbefore, _, hbehind, Option.some.inj h⟩
  · rintro ⟨before, hbefore, behind, hbehind, rfl⟩
    exact hwhole before behind hbefore hbehind

/-! ## Requests with a query -/

/-- What is behind a mark has no part in what is cut out. -/
theorem takeWhile_append_mark (hmark : IsMark mark) (s t : List Char) :
    (s ++ mark :: t).takeWhile (fun c => c ≠ '?' ∧ c ≠ '#') =
      s.takeWhile (fun c => c ≠ '?' ∧ c ≠ '#') := by
  have hstop : ¬(mark ≠ '?' ∧ mark ≠ '#') := by
    rintro ⟨hquestion, hnumber⟩
    exact hmark.elim hquestion hnumber
  induction s with
  | nil => rw [List.nil_append, List.takeWhile_cons_of_neg (by simpa using hstop), List.takeWhile_nil]
  | cons c s ih =>
    rw [List.cons_append, List.takeWhile_cons, List.takeWhile_cons, ih]

/-- A query is dropped from the path of a URL if it spells a text, and otherwise there is no path. -/
theorem path?_append_mark (hmark : IsMark mark) (p q : String) :
    path? (p ++ String.singleton mark ++ q) =
      (decode? q).bind fun _ => path? p := by
  rw [path?, path?, decode?_append_mark hmark]
  rcases decode? p with _ | before
  · rcases decode? q with _ | behind
    · rfl
    · rfl
  · rcases decode? q with _ | behind
    · rfl
    · have hcut := takeWhile_append_mark hmark before.toList behind.toList
      rw [Option.bind_some, Option.map_some, Option.map_some, Option.bind_some, Option.map_some]
      simp only [String.toList_append, String.toList_singleton, List.append_assoc,
        List.singleton_append, hcut]

variable {d : Disk} {root : Path} {p q : String}

theorem resolve?_append_mark (hmark : IsMark mark) :
    resolve? d root (p ++ String.singleton mark ++ q) =
      (decode? q).bind fun _ => resolve? d root p := by
  rw [resolve?, resolve?, path?_append_mark hmark]
  rcases decode? q with _ | behind
  · rfl
  · rfl

/-- **Which queries are dropped**: behind a question mark or a number sign, a text leaves the file that
is found exactly if its escapes spell UTF-8, unless nothing is found without it. With any other one
nothing is found. -/
theorem query_dropped_iff (d : Disk) (root : Path) (p q : String) {mark : String}
    (hmark : mark ∈ ["?", "#"]) :
    (resolve? d root (p ++ mark ++ q) = resolve? d root p ↔
      decode? q ≠ none ∨ resolve? d root p = none) ∧
    (decode? q = none → resolve? d root (p ++ mark ++ q) = none) := by
  obtain ⟨c, hc, rfl⟩ : ∃ c, IsMark c ∧ mark = String.singleton c := by
    rcases List.mem_pair.1 hmark with rfl | rfl
    · exact ⟨'?', .inl rfl, rfl⟩
    · exact ⟨'#', .inr rfl, rfl⟩
  rw [resolve?_append_mark hc]
  rcases decode? q with _ | behind
  · simp [eq_comm]
  · simp

theorem query_dropped_iff_blog :
    "?" ∈ ["?", "#"] ∧
      resolve? served ⟨"dist"⟩ ("/blog" ++ "?" ++ "sort=%64ate&100%") =
        some ⟨"dist/blog/index.html"⟩ := by
  have hmark : "?" ∈ ["?", "#"] := by decide
  have hquery : decode? "sort=%64ate&100%" ≠ none := by decide +kernel
  refine ⟨hmark, ?_⟩
  rw [(query_dropped_iff served ⟨"dist"⟩ "/blog" "sort=%64ate&100%" hmark).1.2 (.inl hquery)]
  decide +kernel

/-- Not every query is dropped: one whose escapes spell no UTF-8 takes the page with it. -/
theorem query_loses_page :
    ¬ ∀ (d : Disk) (root : Path) (p q : String), '?' ∉ p.toList → '#' ∉ p.toList →
      resolve? d root (p ++ "?" ++ q) = resolve? d root p ∧
        resolve? d root (p ++ "#" ++ q) = resolve? d root p := by
  intro h
  have hblog : resolve? served ⟨"dist"⟩ "/blog" = some ⟨"dist/blog/index.html"⟩ := by
    decide +kernel
  have hquery : resolve? served ⟨"dist"⟩ ("/blog" ++ "?" ++ "%FF") = none := by
    decide +kernel
  have hsame := (h served ⟨"dist"⟩ "/blog" "%FF" (by decide) (by decide)).1
  rw [hquery, hblog] at hsame
  cases hsame

end StaticSite.Request
