import StaticSite.Proofs.Requests
import StaticSite.Text.Quoted

/-!
# Names in requests

The URL of a file below the served directory has its names behind slashes, each with percent escapes
for all bytes but the unreserved ones. Decoding gives the names back (`decode?_urlOf`), whatever
characters are in them. But the text is cut at the first question mark or number sign only then, so
an escaped one is taken for the start of a query like one that was written out
(`path?_urlOf`, `noQueryMark_of_path?`). Exactly the files without such a character in their names can be
requested (`encoded_request_finds_iff`).
-/

namespace StaticSite

open Text Literal

namespace Request

/-! ## Encoding -/

/-- A character that stands for itself in a URL and has no other use there. -/
def isUnreserved (c : Char) : Bool := c.isAlphanum || c ∈ ['-', '.', '_', '~']

/-- A hexadecimal digit in upper case. -/
def hexDigit (n : Nat) : Char := (digitChar n).toUpper

/-- A byte in a URL: an unreserved ASCII character as it is, everything else as a percent sign and two
hexadecimal digits. -/
def encodeByte (b : UInt8) : List Char :=
  if isUnreserved (Char.ofNat b.toNat) then [Char.ofNat b.toNat]
  else ['%', hexDigit (b.toNat / 16), hexDigit (b.toNat % 16)]

/-- A name in a URL. -/
def encode (name : String) : List Char := name.toUTF8.toList.flatMap encodeByte

/-- The URL that leads by names from the served directory. -/
def urlOf (names : List String) : String :=
  String.ofList (names.flatMap fun name => '/' :: encode name)

/-! ## Bytes -/

theorem toList_loop (bytes : ByteArray) (i : Nat) (done : List UInt8) :
    ByteArray.toList.loop bytes i done = done.reverse ++ bytes.data.toList.drop i := by
  fun_induction ByteArray.toList.loop bytes i done with
  | case1 i done hlt ih =>
    have hi : i < bytes.data.toList.length := hlt
    have hget : bytes.get! i = bytes.data.toList[i] := getElem!_pos bytes.data i hlt
    rw [ih, List.drop_eq_getElem_cons hi, hget, List.reverse_cons, List.append_assoc]
    rfl
  | case2 i done hge =>
    have hi : bytes.data.toList.length ≤ i := Nat.not_lt.1 hge
    rw [List.drop_eq_nil_of_le hi, List.append_nil]

/-- The bytes of a text. -/
def bytesOf (s : List Char) : List UInt8 := s.flatMap String.utf8EncodeChar

theorem bytesOf_cons (c : Char) (s : List Char) :
    bytesOf (c :: s) = String.utf8EncodeChar c ++ bytesOf s := List.flatMap_cons

theorem bytesOf_append (s t : List Char) : bytesOf (s ++ t) = bytesOf s ++ bytesOf t :=
  List.flatMap_append

theorem toByteArray_bytesOf (s : List Char) :
    (bytesOf s).toByteArray = (String.ofList s).toByteArray := by
  rw [String.toByteArray_ofList]
  rfl

theorem toList_toUTF8 (text : String) : text.toUTF8.toList = bytesOf text.toList := by
  rw [ByteArray.toList, toList_loop, List.reverse_nil, List.nil_append, List.drop_zero,
    String.toUTF8_eq_toByteArray, ← List.toList_data_toByteArray (l := bytesOf text.toList),
    toByteArray_bytesOf, String.ofList_toList]

theorem fromUTF8?_bytesOf (s : List Char) :
    String.fromUTF8? ⟨(bytesOf s).toArray⟩ = some (String.ofList s) := by
  have hbytes : (⟨(bytesOf s).toArray⟩ : ByteArray) = (String.ofList s).toByteArray := by
    rw [← toByteArray_bytesOf]
    exact ByteArray.ext (Array.ext' (List.toList_data_toByteArray).symm)
  rw [hbytes, String.fromUTF8?, dif_pos (String.ofList s).isValidUTF8]
  rfl

/-! ## Decoding -/

theorem decodeBytes_cons {c : Char} (hc : c ≠ '%') (s : List Char) :
    decodeBytes (c :: s) = String.utf8EncodeChar c ++ decodeBytes s := by
  have hbytes : (String.singleton c).toUTF8.toList = String.utf8EncodeChar c := by
    rw [toList_toUTF8, bytesOf, String.toList_singleton, List.flatMap_singleton]
  rw [decodeBytes, hbytes]
  exact fun _ _ _ heq _ => absurd heq hc

theorem hexValue?_hexDigit {n : Nat} (h : n < 16) : hexValue? (hexDigit n) = some n := by
  revert n
  decide

theorem decodeBytes_escape (b : UInt8) (s : List Char) :
    decodeBytes ('%' :: hexDigit (b.toNat / 16) :: hexDigit (b.toNat % 16) :: s) =
      b :: decodeBytes s := by
  have hb : b.toNat < 256 := b.toNat_lt
  rw [decodeBytes, hexValue?_hexDigit (by omega), hexValue?_hexDigit (by omega)]
  dsimp only
  rw [Nat.div_add_mod, UInt8.ofNat_toNat]

/-- An unreserved character is one byte. -/
theorem utf8EncodeChar_of_isUnreserved {b : UInt8} (h : isUnreserved (Char.ofNat b.toNat) = true) :
    Char.ofNat b.toNat ≠ '%' ∧ String.utf8EncodeChar (Char.ofNat b.toNat) = [b] := by
  have hall : ∀ n < 256, isUnreserved (Char.ofNat n) = true →
      Char.ofNat n ≠ '%' ∧ String.utf8EncodeChar (Char.ofNat n) = [UInt8.ofNat n] := by
    decide +kernel
  obtain ⟨hc, hbytes⟩ := hall b.toNat b.toNat_lt h
  exact ⟨hc, by rw [hbytes, UInt8.ofNat_toNat]⟩

theorem decodeBytes_encodeByte (b : UInt8) (s : List Char) :
    decodeBytes (encodeByte b ++ s) = b :: decodeBytes s := by
  rw [encodeByte]
  split
  · next h =>
    obtain ⟨hc, hbytes⟩ := utf8EncodeChar_of_isUnreserved h
    rw [List.singleton_append, decodeBytes_cons hc, hbytes]
    rfl
  · exact decodeBytes_escape b s

theorem decodeBytes_encode (name : String) (s : List Char) :
    decodeBytes (encode name ++ s) = bytesOf name.toList ++ decodeBytes s := by
  rw [encode, toList_toUTF8]
  induction bytesOf name.toList with
  | nil => rfl
  | cons b bytes ih =>
    rw [List.flatMap_cons, List.append_assoc, decodeBytes_encodeByte, ih, List.cons_append]

theorem decodeBytes_of_notMem {s : List Char} (h : '%' ∉ s) : decodeBytes s = bytesOf s := by
  induction s with
  | nil => rfl
  | cons c s ih =>
    rw [List.mem_cons, not_or] at h
    rw [decodeBytes_cons (Ne.symm h.1), ih h.2, bytesOf_cons]

/-- The text that leads by names from the served directory. -/
def slashed (names : List String) : List Char := names.flatMap fun name => '/' :: name.toList

theorem decodeBytes_urlOf (names : List String) (s : List Char) :
    decodeBytes ((urlOf names).toList ++ s) = bytesOf (slashed names) ++ decodeBytes s := by
  rw [urlOf, String.toList_ofList, slashed]
  induction names with
  | nil => rfl
  | cons name names ih =>
    rw [List.flatMap_cons, List.flatMap_cons, List.append_assoc, List.cons_append,
      decodeBytes_cons (by decide), decodeBytes_encode, ih, List.cons_append, bytesOf_cons,
      bytesOf_append, List.append_assoc, List.append_assoc]

/-- **Decoding gives the names back**, with the slashes that stand around them. -/
theorem decode?_urlOf (names : List String) {ending : String} (h : '%' ∉ ending.toList) :
    decode? (urlOf names ++ ending) = some (String.ofList (slashed names ++ ending.toList)) := by
  rw [decode?, String.toList_append, decodeBytes_urlOf, decodeBytes_of_notMem h, ← bytesOf_append,
    fromUTF8?_bytesOf]

/-! ## Cutting -/

theorem dropWhile_slash {s : List Char} (h : s.head? ≠ some '/') :
    s.dropWhile (· = '/') = s := by
  cases s with
  | nil => rfl
  | cons c s =>
    rw [List.head?_cons, Ne, Option.some_inj] at h
    rw [List.dropWhile_cons_of_neg (by simp [h])]

theorem dropWhile_slashes {slashes : List Char} (h : ∀ c ∈ slashes, c = '/') (s : List Char) :
    (slashes ++ s).dropWhile (· = '/') = s.dropWhile (· = '/') :=
  List.dropWhile_append_of_pos fun c hc => decide_eq_true (h c hc)

/-- Only the slashes at the ends are taken off. -/
theorem trimSlashes_eq {before s behind : List Char} (hbefore : ∀ c ∈ before, c = '/')
    (hbehind : ∀ c ∈ behind, c = '/') (hfirst : s.head? ≠ some '/')
    (hlast : s.getLast? ≠ some '/') : trimSlashes (before ++ s ++ behind) = s := by
  have hfront : (s ++ behind).dropWhile (· = '/') = s ++ behind ∨ s = [] := by
    rcases s with _ | ⟨c, s⟩
    · exact .inr rfl
    · exact .inl (dropWhile_slash hfirst)
  rw [trimSlashes, List.append_assoc, dropWhile_slashes hbefore]
  rcases hfront with hfront | rfl
  · rw [hfront, List.reverse_append, dropWhile_slashes (by simpa using hbehind),
      dropWhile_slash (by rwa [List.head?_reverse]), List.reverse_reverse]
  · have hnil : behind.dropWhile (· = '/') = [] := by
      simpa using dropWhile_slashes hbehind []
    rw [List.nil_append, hnil]
    rfl

/-- No name has a character with which a query or a fragment starts. -/
def NoQueryMark (names : List String) : Prop :=
  ∀ name ∈ names, '?' ∉ name.toList ∧ '#' ∉ name.toList

instance (names : List String) : Decidable (NoQueryMark names) :=
  inferInstanceAs (Decidable (∀ name ∈ names, '?' ∉ name.toList ∧ '#' ∉ name.toList))

theorem slashed_eq {names : List String} (h : names ≠ []) :
    slashed names = '/' :: ("/".intercalate names).toList := by
  induction names with
  | nil => exact absurd rfl h
  | cons name names ih =>
    rcases names with _ | ⟨next, names⟩
    · simp [slashed]
    · rw [slashed, List.flatMap_cons, ← slashed, ih (List.cons_ne_nil _ _),
        String.intercalate_cons_cons]
      simp

theorem getLast?_intercalate {names : List String} (h : ∀ name ∈ names, IsFileName name) :
    ("/".intercalate names).toList.getLast? ≠ some '/' := by
  intro hlast
  obtain ⟨s, hs⟩ := List.getLast?_eq_some_iff.1 hlast
  by_cases hne : names = []
  · subst hne
    cases hlast
  · have hsegments := Path.segments_intercalate h hne
    rw [Path.segments, hs, splitOn_append_cons, List.map_append] at hsegments
    have hempty : "" ∈ names := by
      rw [← hsegments]
      simp [splitOn]
    exact (h "" hempty).nonempty rfl

theorem notMem_slashed {names : List String} (h : NoQueryMark names) {c : Char}
    (hc : c ∈ slashed names) : c ≠ '?' ∧ c ≠ '#' := by
  obtain ⟨name, hname, hc⟩ := List.mem_flatMap.1 hc
  rcases List.mem_cons.1 hc with rfl | hc
  · decide
  · constructor
    · rintro rfl
      exact (h name hname).1 hc
    · rintro rfl
      exact (h name hname).2 hc

/-- Where nothing is cut off, the path of the URL of some names has these names. -/
theorem path?_urlOf {names : List String} (hnames : ∀ name ∈ names, IsFileName name)
    (hmark : NoQueryMark names) {ending : String} (hending : ∀ c ∈ ending.toList, c = '/') :
    path? (urlOf names ++ ending) = some ⟨"/".intercalate names⟩ := by
  have hpercent : '%' ∉ ending.toList := fun hmem => absurd (hending _ hmem) (by decide)
  have huncut : (slashed names ++ ending.toList).takeWhile (fun c => c ≠ '?' ∧ c ≠ '#') =
      slashed names ++ ending.toList := by
    rw [← List.append_nil (slashed names ++ ending.toList), List.takeWhile_append_of_pos,
      List.takeWhile_nil]
    intro c hc
    rw [decide_eq_true_eq]
    rcases List.mem_append.1 hc with hc | hc
    · exact notMem_slashed hmark hc
    · rw [hending c hc]
      decide
  have hslashed : ∃ before : List Char, (∀ c ∈ before, c = '/') ∧
      slashed names = before ++ ("/".intercalate names).toList := by
    by_cases hne : names = []
    · subst hne
      exact ⟨[], by simp, rfl⟩
    · exact ⟨['/'], by simp, slashed_eq hne⟩
  obtain ⟨before, hbefore, hslashed⟩ := hslashed
  have hfirst := Path.isAbsolute_intercalate hnames
  rw [Path.isAbsolute, decide_eq_false_iff_not] at hfirst
  rw [path?, decode?_urlOf names hpercent, Option.map_some, String.toList_ofList, huncut, hslashed,
    trimSlashes_eq hbefore hending hfirst (getLast?_intercalate hnames), String.ofList_toList]

/-! ## What is never asked for -/

theorem mem_of_mem_trimSlashes {c : Char} {s : List Char} (h : c ∈ trimSlashes s) : c ∈ s := by
  rw [trimSlashes, List.mem_reverse] at h
  exact (List.dropWhile_suffix _).subset
    (List.mem_reverse.1 ((List.dropWhile_suffix _).subset h))

/-- Whatever a URL spells, the names that are asked for have no character that starts a query. -/
theorem noQueryMark_of_path? {url : String} {q : Path} {names : List String}
    (h : path? url = some q) (hq : q.Spells names) : NoQueryMark names := by
  have hmark : ∀ c ∈ q.text.toList, c ≠ '?' ∧ c ≠ '#' := by
    obtain ⟨text, -, rfl⟩ := Option.map_eq_some_iff.1 h
    intro c hc
    rw [String.toList_ofList] at hc
    simpa using List.all_eq_true.1 List.all_takeWhile c (mem_of_mem_trimSlashes hc)
  intro name hname
  obtain ⟨part, hpart, rfl⟩ := List.mem_map.1 (Path.mem_segments_of_spells hq hname)
  rw [String.toList_ofList]
  exact ⟨fun hc => (hmark _ (mem_of_mem_splitOn hpart hc)).1 rfl,
    fun hc => (hmark _ (mem_of_mem_splitOn hpart hc)).2 rfl⟩

end Request

namespace Request

variable {d : Disk} {root : Path} {l : Location} {names dirs : List String} {content : ByteArray}
variable {url ending : String}

/-! ## Requests for files -/

/-- A request for a URL is answered with the file at a location. -/
def Finds (d : Disk) (root : Path) (url : String) (l : Location) : Prop :=
  ∃ p, resolve? d root url = some p ∧ d.locate? p = some l

/-- The URL of a file is answered with this file. -/
theorem finds_file (hroot : d.origin? root = some l)
    (hfile : d.tree.content? (l ++ names) = some content) (hne : names ≠ [])
    (hmark : NoQueryMark names) : Finds d root (urlOf names) (l ++ names) := by
  have hstands := FileTree.get?_ne_none_of_content? hfile
  obtain ⟨hnames, hdir⟩ := FileTree.get?_append_ne_none hstands
  have hnone : ∀ c ∈ "".toList, c = '/' := by simp
  have hpath : path? (urlOf names) = some ⟨"/".intercalate names⟩ := by
    simpa using path?_urlOf hnames hmark hnone
  have hlocate := Disk.origin?_join_intercalate hroot (hdir hne) hstands
  rw [Disk.origin?_of_text_ne (Path.text_join_ne_of_right (Path.text_intercalate_ne hnames hne))]
    at hlocate
  refine ⟨root.join ⟨"/".intercalate names⟩, ?_, hlocate⟩
  rw [resolve?_of_spells d root hpath (Path.spells_intercalate hnames),
    if_pos (Disk.isFile_of_locate? hlocate hfile)]

/-- The URL of a directory is answered with its index. -/
theorem finds_index (hroot : d.origin? root = some l)
    (hfile : d.tree.content? (l ++ (dirs ++ ["index.html"])) = some content)
    (hmark : NoQueryMark dirs) (hending : ∀ c ∈ ending.toList, c = '/') :
    Finds d root (urlOf dirs ++ ending) (l ++ (dirs ++ ["index.html"])) := by
  rw [← List.append_assoc] at hfile ⊢
  have hdir : d.tree.isDirectory (l ++ dirs) = true :=
    (FileTree.get?_concat_ne_none (FileTree.get?_ne_none_of_content? hfile)).2
  have hstands := FileTree.get?_ne_none_of_isDirectory hdir
  have hnames := (FileTree.get?_append_ne_none hstands).1
  have hl : d.tree.isDirectory l = true := by
    by_cases hne : dirs = []
    · rwa [hne, List.append_nil] at hdir
    · exact (FileTree.get?_append_ne_none hstands).2 hne
  have hspells := Path.spells_intercalate hnames
  have hnofile : d.isFile (root.join ⟨"/".intercalate dirs⟩) = false := by
    rw [Bool.eq_false_iff]
    intro hisFile
    -- a directory stands where the path leads
    obtain ⟨other, -, hother⟩ := Disk.exists_of_isFile hisFile
    rw [Path.place_join_names d.here root hspells, Disk.place_of_origin? hroot,
      FileTree.content?_eq_some] at hother
    rw [FileTree.isDirectory, hother, decide_eq_true_eq] at hdir
    cases hdir
  have hlocate : d.locate? ((root.join ⟨"/".intercalate dirs⟩).child "index.html") =
      some (l ++ dirs ++ ["index.html"]) := by
    have hindex : d.tree.get? (l ++ dirs ++ ["index.html"]) ≠ none :=
      FileTree.get?_ne_none_of_content? hfile
    have horigin := Disk.origin?_join_intercalate
      (Disk.origin?_join_intercalate hroot hl hstands) hdir hindex
    rwa [Disk.origin?_of_text_ne (Path.text_join_ne_of_right (by decide))] at horigin
  refine ⟨_, ?_, hlocate⟩
  rw [resolve?_of_spells d root (path?_urlOf hnames hmark hending) hspells, hnofile,
    if_neg Bool.false_ne_true, if_pos (Disk.isFile_of_locate? hlocate hfile)]

/-- What is found has no name with a character that starts a query. -/
theorem noQueryMark_of_finds (hroot : d.origin? root = some l)
    (h : Finds d root url (l ++ names)) : NoQueryMark names := by
  obtain ⟨p, hp, hlocate⟩ := h
  obtain ⟨q, asked, found, hpath, hq, hfound, -, -, hplace⟩ := exists_of_found hp
  rw [← Disk.locate?_eq_some hlocate, Disk.place_of_origin? hroot] at hplace
  obtain rfl : names = found := List.append_cancel_left hplace
  have hmark := noQueryMark_of_path? hpath hq
  rcases hfound with rfl | rfl
  · exact hmark
  · intro name hname
    rcases List.mem_append.1 hname with hname | hname
    · exact hmark name hname
    · obtain rfl := List.mem_singleton.1 hname
      decide

/-- **Which files can be requested**: by the URL of its names, or of its directory if it is an index,
a file is found exactly if none of its names has a question mark or a number sign. -/
theorem encoded_request_finds_iff (hroot : d.origin? root = some l)
    (hfile : d.tree.content? (l ++ names) = some content) (hne : names ≠ []) :
    (Finds d root (urlOf names) (l ++ names) ↔ NoQueryMark names) ∧
    ∀ dirs, names = dirs ++ ["index.html"] → ∀ ending ∈ ["", "/"],
      (Finds d root (urlOf dirs ++ ending) (l ++ names) ↔ NoQueryMark names) := by
  refine ⟨⟨noQueryMark_of_finds hroot, finds_file hroot hfile hne⟩, ?_⟩
  rintro dirs rfl ending hending
  have hslashes : ∀ c ∈ ending.toList, c = '/' := by
    rcases List.mem_pair.1 hending with rfl | rfl <;> simp
  refine ⟨noQueryMark_of_finds hroot, fun hmark => ?_⟩
  exact finds_index hroot hfile (fun name hname => hmark name (List.mem_append_left _ hname)) hslashes

theorem encoded_request_finds_iff_sale :
    (Finds served ⟨"dist"⟩ "/50%25%20off/index.html" ["dist", "50% off", "index.html"] ↔
      NoQueryMark ["50% off", "index.html"]) ∧
    ∀ dirs, ["50% off", "index.html"] = dirs ++ ["index.html"] → ∀ ending ∈ ["", "/"],
      (Finds served ⟨"dist"⟩ (urlOf dirs ++ ending) ["dist", "50% off", "index.html"] ↔
        NoQueryMark ["50% off", "index.html"]) := by
  have hroot : served.origin? ⟨"dist"⟩ = some ["dist"] := by decide +kernel
  have hfile : served.tree.content? (["dist"] ++ ["50% off", "index.html"]) =
      some "sale".toUTF8 := by
    decide +kernel
  have hurl : urlOf ["50% off", "index.html"] = "/50%25%20off/index.html" := by decide +kernel
  have h := encoded_request_finds_iff hroot hfile (by decide)
  rwa [hurl] at h

/-- Not every file can be requested: a question mark in a name is escaped in its URL, but not told
from one behind which a query stands. -/
theorem encoded_request_misses :
    ¬ ∀ (d : Disk) (root : Path) (l : Location) (names : List String) (content : ByteArray),
      d.origin? root = some l → d.tree.content? (l ++ names) = some content → names ≠ [] →
        Finds d root (urlOf names) (l ++ names) := by
  intro h
  have hroot : served.origin? ⟨"dist"⟩ = some ["dist"] := by decide +kernel
  have hfile : served.tree.content? (["dist"] ++ ["why?", "index.html"]) = some "why".toUTF8 := by
    decide +kernel
  have hmark := noQueryMark_of_finds hroot (h served ⟨"dist"⟩ ["dist"] _ _ hroot hfile (by decide))
  exact absurd hmark (by decide)

end Request

end StaticSite
