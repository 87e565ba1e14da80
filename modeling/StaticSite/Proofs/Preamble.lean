import Mathlib.Data.List.TakeWhile
import Mathlib.Data.Option.Basic
import StaticSite.Component.Exports
import StaticSite.Proofs.Unread

/-!
# What stands in front of the export

The export of a script is looked for in its text, from the left, and what stands in front of it is
not looked at. So a script can be put behind any text that has no `export default` of its own: the
configuration stays the same, and the offset of a fault moves by the length of that text
(`parse_append`). Comments can be such a text, but the search knows nothing of comments: where one
of them has the words, the script is read from there on (`parse_comments`).
-/

namespace StaticSite

open Text Literal

/-- An error of a script behind so many more bytes. -/
def SourceError.shift (n : Nat) : SourceError → SourceError
  | .literal e => .literal { e with offset := n + e.offset }
  | e => e

namespace Exports

variable {s t : List Char}

/-! ## Texts that end outside of words -/

/-- The last character, if there is one, is no part of a word. -/
def EndsOutside (s : List Char) : Prop := ∀ c, s.getLast? = some c → isWord c = false

namespace EndsOutside

theorem of_suffix (h : EndsOutside t) (hs : s <:+ t) : EndsOutside s := by
  obtain ⟨u, rfl⟩ := hs
  intro c hc
  exact h c (by rw [List.getLast?_append, hc, Option.some_or])

theorem cons {c : Char} (hc : isWord c = false) (hs : EndsOutside s) : EndsOutside (c :: s) := by
  cases s with
  | nil =>
    intro d hd
    cases hd
    exact hc
  | cons d s =>
    intro e he
    exact hs e (by rwa [List.getLast?_cons_cons] at he)

theorem behind (s : List Char) (ht : EndsOutside t) (hne : t ≠ []) : EndsOutside (s ++ t) := by
  intro c hc
  rw [List.getLast?_append, List.getLast?_eq_some_getLast hne, Option.some_or] at hc
  exact ht c (by rw [List.getLast?_eq_some_getLast hne, hc])

end EndsOutside

/-- The white space beyond ASCII and the byte order mark. -/
def wideSpaces : List Nat :=
  [0x85, 0xA0, 0x1680, 0x2000, 0x2001, 0x2002, 0x2003, 0x2004, 0x2005, 0x2006, 0x2007, 0x2008,
    0x2009, 0x200A, 0x2028, 0x2029, 0x202F, 0x205F, 0x3000, 0xFEFF]

/-- White space is no part of a word. -/
theorem not_isWord_of_space {c : Char} (h : isBlank c = true ∨ c = '\ufeff') :
    isWord c = false := by
  have htable : ∀ n ∈ wideSpaces,
      (wordRanges.any fun range => range.1 ≤ n && n ≤ range.2) = false := by
    decide +kernel
  have hcode : c.toNat ≤ 32 ∨ (128 ≤ c.toNat ∧ c.toNat ∈ wideSpaces) := by
    obtain h | rfl := h
    · simp only [isBlank, Bool.or_eq_true, Bool.and_eq_true, decide_eq_true_eq, beq_iff_eq] at h
      simp only [wideSpaces, List.mem_cons, List.not_mem_nil, or_false]
      omega
    · decide
  obtain hascii | ⟨hwide, hmem⟩ := hcode
  · rw [isWord_ascii (by omega), Bool.or_eq_false_iff]
    constructor
    · rw [Bool.eq_false_iff]
      intro halnum
      have hlow := (toNat_of_isAlphanum halnum).1
      omega
    · rw [beq_eq_false_iff_ne]
      rintro rfl
      exact absurd hascii (by decide)
  · rw [isWord, if_neg (by omega)]
    exact htable c.toNat hmem

/-! ## Comments -/

/-- Comments and white space: line comments with the line feed that ends them, block comments, and
blanks, to which the byte order mark belongs. -/
inductive Comments : List Char → Prop where
  /-- nothing -/
  | nil : Comments []
  /-- a blank -/
  | blank {c : Char} {s : List Char} (space : isBlank c = true ∨ c = '\ufeff')
      (more : Comments s) : Comments (c :: s)
  /-- a comment up to the end of its line -/
  | line {w s : List Char} (inside : '\n' ∉ w) (more : Comments s) :
      Comments ('/' :: '/' :: (w ++ '\n' :: s))
  /-- a comment up to the first mark of its end -/
  | block {w s : List Char} (inside : ¬ ['*', '/'] <:+: w) (more : Comments s) :
      Comments ('/' :: '*' :: (w ++ '*' :: '/' :: s))

theorem Comments.endsOutside (h : Comments s) : EndsOutside s := by
  induction h with
  | nil =>
    intro c hc
    cases hc
  | blank space more ih => exact ih.cons (not_isWord_of_space space)
  | @line w s inside more ih =>
    have hend : EndsOutside ('\n' :: s) := ih.cons (by decide)
    exact hend.behind ('/' :: '/' :: w) (List.cons_ne_nil _ _)
  | @block w s inside more ih =>
    have hend : EndsOutside ('/' :: s) := ih.cons (by decide)
    rw [List.append_cons]
    exact hend.behind ('/' :: '*' :: (w ++ ['*'])) (List.cons_ne_nil _ _)

/-! ## The search -/

/-- What stands behind a text that ends outside of words has no part in whether the text starts with
a word. -/
theorem startsWith?_append {word : List Char} (hword : ∀ c ∈ word, isWord c = true)
    (hs : EndsOutside s) (hne : s ≠ []) (t : List Char) :
    startsWith? word (s ++ t) = (startsWith? word s).map (· ++ t) := by
  rcases hstart : startsWith? word s with _ | rest
  · rw [Option.map_none, Option.eq_none_iff_forall_ne_some]
    intro rest hrest
    obtain ⟨u, rfl, -⟩ | ⟨u, rfl, -⟩ := List.append_eq_append_iff.1 (startsWith?_eq_some.1 hrest)
    · have hlast := hs _ (List.getLast?_eq_some_getLast hne)
      rw [hword _ (List.mem_append_left u (List.getLast_mem hne))] at hlast
      cases hlast
    · rw [startsWith?_eq_some.2 rfl] at hstart
      cases hstart
  · rw [startsWith?_eq_some.1 hstart, List.append_assoc]
    exact startsWith?_eq_some.2 rfl

/-- A word is no text that ends outside of words. -/
theorem ne_nil_of_startsWith? {word rest : List Char} (hword : ∀ c ∈ word, isWord c = true)
    (hne : word ≠ []) (hs : EndsOutside s) (h : startsWith? word s = some rest) : rest ≠ [] := by
  rintro rfl
  obtain rfl : s = word ++ [] := startsWith?_eq_some.1 h
  have hlast := hs (word.getLast hne) (by simp [List.getLast?_eq_some_getLast hne])
  rw [hword _ (List.getLast_mem hne)] at hlast
  cases hlast

theorem trimStart_append (s t : List Char) :
    trimStart (s ++ t) = if trimStart s = [] then trimStart t else trimStart s ++ t := by
  by_cases h : trimStart s = []
  · rw [if_pos h, trimStart, List.dropWhile_append, ← trimStart, h]
    rfl
  · rw [if_neg h, trimStart, List.dropWhile_append, ← trimStart, if_neg (by simpa using h)]

theorem isWord_of_mem_export : ∀ c ∈ "export".toList, isWord c = true :=
  List.all_eq_true.1 (by decide)

theorem isWord_of_mem_default : ∀ c ∈ "default".toList, isWord c = true :=
  List.all_eq_true.1 (by decide)

/-- `export default` at the start of a text. -/
theorem exportAt?_eq_some {rest : List Char} : exportAt? s = some rest ↔
    ∃ a, s = "export".toList ++ a ∧ (trimStart a).length < a.length ∧
      trimStart a = "default".toList ++ rest ∧ rest.head?.any isWord = false := by
  simp only [exportAt?, Option.bind_eq_bind, Option.bind_eq_some_iff, startsWith?_eq_some,
    Option.guard_eq_some', Option.pure_def, Option.some.injEq, Bool.not_eq_true']
  constructor
  · rintro ⟨a, ha, -, hlt, rest, hrest, -, hword, rfl⟩
    exact ⟨a, ha, hlt, hrest, hword⟩
  · rintro ⟨a, ha, hlt, hrest, hword⟩
    exact ⟨a, ha, (), hlt, rest, hrest, (), hword, rfl⟩

theorem suffix_of_exportAt? {rest : List Char} (h : exportAt? s = some rest) : rest <:+ s := by
  obtain ⟨a, rfl, -, hrest, -⟩ := exportAt?_eq_some.1 h
  have hdefault : rest <:+ trimStart a := hrest ▸ List.suffix_append _ _
  exact (hdefault.trans (List.dropWhile_suffix _)).trans (List.suffix_append _ _)

/-- What stands behind a text that ends outside of words has no part in whether the text starts with
`export default`, unless it could be the `default` itself. -/
theorem exportAt?_append (hs : EndsOutside s) (hne : s ≠ []) (ht : t.head? = some 'e') :
    exportAt? (s ++ t) = (exportAt? s).map (· ++ t) := by
  obtain ⟨t, rfl⟩ := List.head?_eq_some_iff.1 ht
  have hself : trimStart ('e' :: t) = 'e' :: t := List.dropWhile_cons_of_neg (by decide)
  have hends {a : List Char} (ha : s = "export".toList ++ a) : EndsOutside (trimStart a) :=
    hs.of_suffix ((List.dropWhile_suffix _).trans (ha ▸ List.suffix_append _ _))
  -- behind `default` there is something left, so that this is also what ends the word
  have hbehind {a rest : List Char} (ha : s = "export".toList ++ a)
      (hrest : trimStart a = "default".toList ++ rest) : ∃ c u, rest = c :: u :=
    List.exists_cons_of_ne_nil (ne_nil_of_startsWith? isWord_of_mem_default (by decide)
      (hends ha) (startsWith?_eq_some.2 hrest))
  ext rest
  rw [Option.map_eq_some_iff, exportAt?_eq_some]
  constructor
  · rintro ⟨a, ha, hlt, hrest, hword⟩
    have hexport := startsWith?_append isWord_of_mem_export hs hne ('e' :: t)
    rw [startsWith?_eq_some.2 ha, eq_comm, Option.map_eq_some_iff] at hexport
    obtain ⟨b, hb, rfl⟩ := hexport
    rw [startsWith?_eq_some] at hb
    rw [trimStart_append] at hlt hrest
    split at hrest
    · rw [hself] at hrest
      cases hrest
    · next hdrop =>
      rw [if_neg hdrop] at hlt
      have hdefault := startsWith?_append isWord_of_mem_default (hends hb) hdrop ('e' :: t)
      rw [startsWith?_eq_some.2 hrest, eq_comm, Option.map_eq_some_iff] at hdefault
      obtain ⟨u, hu, rfl⟩ := hdefault
      rw [startsWith?_eq_some] at hu
      obtain ⟨c, v, rfl⟩ := hbehind hb hu
      refine ⟨c :: v, exportAt?_eq_some.2 ⟨b, hb, ?_, hu, hword⟩, rfl⟩
      simp only [List.length_append] at hlt
      omega
  · rintro ⟨u, hu, rfl⟩
    obtain ⟨a, ha, hlt, hrest, hword⟩ := exportAt?_eq_some.1 hu
    have hne : trimStart a ≠ [] := by simp [hrest]
    obtain ⟨c, v, rfl⟩ := hbehind ha hrest
    refine ⟨a ++ 'e' :: t, by rw [ha, List.append_assoc], ?_, ?_, hword⟩
    · rw [trimStart_append, if_neg hne]
      simp only [List.length_append]
      omega
    · rw [trimStart_append, if_neg hne, hrest, List.append_assoc]

/-- The first `export default` is a place in the text. -/
theorem exists_of_findExport? {inWord : Bool} {rest : List Char}
    (h : findExport? inWord s = some rest) :
    ∃ front back, s = front ++ back ∧ exportAt? back = some rest := by
  induction s generalizing inWord with
  | nil => cases h
  | cons c s ih =>
    rw [findExport?] at h
    split at h
    · next hat =>
      cases h
      cases inWord with
      | true => cases hat
      | false => exact ⟨[], c :: s, rfl, hat⟩
    · obtain ⟨front, back, rfl, hback⟩ := ih h
      exact ⟨c :: front, back, rfl, hback⟩

theorem findExport?_of_exportAt? {rest : List Char} (h : exportAt? s = some rest) :
    findExport? false s = some rest := by
  cases s with
  | nil => cases h
  | cons c s =>
    rw [findExport?]
    simp only [Bool.false_eq_true, if_false, h]

/-- The search goes through a text that ends outside of words, and then through what stands behind
it. -/
theorem findExport?_append {inWord : Bool} (hs : EndsOutside s) (hword : s = [] → inWord = false)
    (ht : t.head? = some 'e') : findExport? inWord (s ++ t) =
      ((findExport? inWord s).map (· ++ t)).or (findExport? false t) := by
  induction s generalizing inWord with
  | nil =>
    rw [hword rfl]
    rfl
  | cons c s ih =>
    have hs' : EndsOutside s := hs.of_suffix (List.suffix_cons _ _)
    have hword' : s = [] → isWord c = false := by
      rintro rfl
      exact hs c rfl
    have hat := exportAt?_append hs (List.cons_ne_nil c s) ht
    rw [List.cons_append] at hat ⊢
    rw [findExport?, findExport?, ih hs' hword']
    cases inWord with
    | true => rfl
    | false =>
      simp only [Bool.false_eq_true, if_false, hat]
      cases exportAt? (c :: s) <;> rfl

/-! ## The script behind another text -/

theorem leaves_skipEnd (s : List Char) : Leaves id (skipEnd s) s := by
  refine (leaves_skipTrivia s).bind fun t => ?_
  split
  · next u => exact (leaves_skipTrivia u).trans (List.suffix_cons _ _)
  · exact List.suffix_refl _

theorem leaves_readExport (s : List Char) : Leaves Prod.snd (readExport s) s := by
  refine (leaves_value? s).bind fun read => ?_
  exact (leaves_skipEnd read.2).bind fun rest => List.suffix_refl _

/-- An error that says which shape is wrong, if there is one: none that has an offset. -/
def Shapely {α : Type} (x : Except SourceError α) : Prop :=
  ∀ e, x = .error e → ∃ key expected, e = .exportShape key expected

namespace Shapely

variable {α β : Type} {x : Except SourceError α} {f : α → Except SourceError β}

theorem ok {a : α} : Shapely (.ok a : Except SourceError α) := by
  intro e he
  cases he

theorem error {key expected : String} :
    Shapely (.error (.exportShape key expected) : Except SourceError α) := by
  intro e he
  cases he
  exact ⟨key, expected, rfl⟩

theorem bind (hx : Shapely x) (hf : ∀ a, Shapely (f a)) : Shapely (x >>= f) := by
  cases x with
  | error e =>
    intro e' he
    exact hx e' (by cases he; rfl)
  | ok a => exact hf a

theorem mapM (hf : ∀ a, Shapely (f a)) (l : List α) : Shapely (l.mapM f) := by
  induction l with
  | nil => exact ok
  | cons a l ih =>
    rw [List.mapM_cons]
    exact (hf a).bind fun b => ih.bind fun bs => ok

theorem mapError_shift (h : Shapely x) (n : Nat) : x.mapError (·.shift n) = x := by
  cases x with
  | ok a => rfl
  | error e =>
    obtain ⟨key, expected, rfl⟩ := h e rfl
    rfl

end Shapely

theorem shapely_paramOf (d : Data) : Shapely (paramOf d) := by
  unfold paramOf
  split
  all_goals first | exact .ok | exact .error

theorem shapely_routeOf (d : Data) : Shapely (routeOf d) := by
  unfold routeOf
  split
  · next record =>
    refine Shapely.bind ?_ fun params => Shapely.bind ?_ fun props => .ok
    · unfold paramsOf
      split
      · exact .ok
      · exact .ok
      · refine Shapely.mapM (fun field => ?_) _
        exact (shapely_paramOf field.2).bind fun value => .ok
      · exact .error
    · unfold routePropsOf
      split
      · exact .ok
      · exact .ok
      · exact .ok
      · exact .error
  · exact .error

/-- The keys of the object are all that can be wrong with it. -/
theorem shapely_ofFields (fields : Fields) : Shapely (ofFields fields) := by
  have hname (v : Option Data) : Shapely (nameOf v) := by
    unfold nameOf
    split
    all_goals first | exact .ok | exact .error
  have hstyles (v : Option Data) : Shapely (stylesOf v) := by
    unfold stylesOf
    split
    · exact .ok
    · exact .ok
    · exact .ok
    · refine Shapely.mapM (fun d => ?_) _
      split
      all_goals first | exact .ok | exact .error
    · exact .error
  have hprops (v : Option Data) : Shapely (propsOf v) := by
    unfold propsOf
    split
    all_goals first | exact .ok | exact .error
  have hroutes (v : Option Data) : Shapely (routesOf v) := by
    unfold routesOf
    split
    · exact .ok
    · exact .ok
    · exact (Shapely.mapM shapely_routeOf _).bind fun routes => .ok
    · exact .error
  exact (hname _).bind fun name => (hstyles _).bind fun styles =>
    (hprops _).bind fun props => (hroutes _).bind fun routes => .ok

/-- What a script exports by what was read behind its `export default`. -/
def outcome (whole : List Char) : Except Stop (Data × List Char) → Except SourceError Exports
  | .error stop => .error (.literal (stop.at whole))
  | .ok (value, []) =>
    match value with
    | .object fields => ofFields fields
    | _ => .error (.exportShape "default" "an object")
  | .ok (_, rest) =>
    .error (.literal ⟨"unexpected code after `export default`",
      byteLength whole - byteLength rest⟩)

theorem isBlank_of_trim (h : trim s = []) : ∀ c ∈ s, isBlank c = true := by
  rw [trim, trimEnd, List.reverse_eq_nil_iff, List.dropWhile_eq_nil_iff] at h
  intro c hc
  rw [← List.takeWhile_append_dropWhile (p := isBlank) (l := s), List.mem_append] at hc
  obtain hc | hc := hc
  · exact List.mem_takeWhile_imp hc
  · exact h c (List.mem_reverse.2 hc)

/-- A script with something in it that is not blank is searched. -/
theorem trim_ne_nil (h : 'e' ∈ s) : trim s ≠ [] := by
  intro htrim
  exact absurd (isBlank_of_trim htrim 'e' h) (by decide)

theorem mem_of_findExport? {inWord : Bool} {rest : List Char}
    (h : findExport? inWord s = some rest) : 'e' ∈ s := by
  obtain ⟨front, back, rfl, hback⟩ := exists_of_findExport? h
  obtain ⟨a, rfl, -⟩ := exportAt?_eq_some.1 hback
  simp

theorem suffix_of_findExport? {inWord : Bool} {rest : List Char}
    (h : findExport? inWord s = some rest) : rest <:+ s := by
  obtain ⟨front, back, rfl, hback⟩ := exists_of_findExport? h
  exact (suffix_of_exportAt? hback).trans (List.suffix_append _ _)

theorem parse_of_none {script : String} (hmem : 'e' ∈ script.toList)
    (h : findExport? false script.toList = none) : parse script = .error .missingDefaultExport := by
  rw [parse]
  simp only [trim_ne_nil hmem, if_false, h]

theorem parse_of_some {script : String} {rest : List Char}
    (h : findExport? false script.toList = some rest) :
    parse script = outcome script.toList (readExport rest) := by
  rw [parse]
  simp only [trim_ne_nil (mem_of_findExport? h), if_false, h]
  rcases readExport rest with stop | ⟨value, _ | ⟨c, rest⟩⟩ <;> rfl

/-- The offset of a fault moves with the text that has it. -/
theorem outcome_append {x : Except Stop (Data × List Char)} (h : Leaves Prod.snd x t)
    (s : List Char) :
    outcome (s ++ t) x = (outcome t x).mapError (·.shift (byteLength s)) := by
  have hoffset {rest : List Char} (hrest : rest <:+ t) : byteLength (s ++ t) - byteLength rest =
      byteLength s + (byteLength t - byteLength rest) := by
    obtain ⟨u, rfl⟩ := hrest
    simp only [byteLength_append]
    omega
  rcases x with stop | ⟨value, _ | ⟨c, rest⟩⟩
  · simp only [outcome, Stop.at, hoffset h]
    rfl
  · cases value with
    | object fields => exact ((shapely_ofFields fields).mapError_shift _).symm
    | _ => rfl
  · simp only [outcome, hoffset h]
    rfl

/-- **What stands in front of the export makes no difference** but for offsets: where the search
comes to the same rest, the exports are the same. -/
theorem parse_append {front script : String} {rest : List Char}
    (hscript : findExport? false script.toList = some rest)
    (hwhole : findExport? false (front ++ script).toList = some rest) :
    parse (front ++ script) = (parse script).mapError (·.shift (byteLength front.toList)) := by
  rw [parse_of_some hscript, parse_of_some hwhole, String.toList_append]
  exact outcome_append ((leaves_readExport rest).trans (suffix_of_findExport? hscript)) _

section

variable {front script : String}

theorem findExport?_toList_append (hends : EndsOutside front.toList)
    (hhead : script.toList.head? = some 'e') : findExport? false (front ++ script).toList =
      ((findExport? false front.toList).map (· ++ script.toList)).or
        (findExport? false script.toList) := by
  rw [String.toList_append]
  exact findExport?_append hends (fun _ => rfl) hhead

/-- A text without the words `export default` in front of a script only moves an offset. -/
theorem parse_behind (hends : EndsOutside front.toList) (hhead : script.toList.head? = some 'e')
    (hnone : findExport? false front.toList = none) :
    parse (front ++ script) = (parse script).mapError (·.shift (byteLength front.toList)) := by
  have hsearch := findExport?_toList_append hends hhead
  rw [hnone, Option.map_none, Option.none_or] at hsearch
  rcases hfind : findExport? false script.toList with _ | rest
  · have hmem : 'e' ∈ script.toList := List.mem_of_mem_head? hhead
    rw [parse_of_none hmem hfind, parse_of_none ?_ (hsearch.trans hfind)]
    · rfl
    · rw [String.toList_append]
      exact List.mem_append_right _ hmem
  · exact parse_append hfind (hsearch.trans hfind)

/-- A text with the words `export default` in front of a script is itself where the script is read:
from the first such words on. -/
theorem exists_parse_of_found {rest : List Char} (hends : EndsOutside front.toList)
    (hhead : script.toList.head? = some 'e') (hsome : findExport? false front.toList = some rest) :
    ∃ before back, front = before ++ back ∧ exportAt? back.toList = some rest ∧
      parse (front ++ script) =
        (parse (back ++ script)).mapError (·.shift (byteLength before.toList)) := by
  have hsearch := findExport?_toList_append hends hhead
  rw [hsome, Option.map_some, Option.some_or] at hsearch
  obtain ⟨before, back, hsplit, hback⟩ := exists_of_findExport? hsome
  have hcut : front = String.ofList before ++ String.ofList back := by
    rw [← String.ofList_append, ← hsplit, String.ofList_toList]
  have hne : back ≠ [] := by
    rintro rfl
    cases hback
  have hat := exportAt?_append (hends.of_suffix ⟨before, hsplit.symm⟩) hne hhead
  rw [hback, Option.map_some] at hat
  refine ⟨String.ofList before, String.ofList back, hcut, by rwa [String.toList_ofList], ?_⟩
  rw [hcut, String.append_assoc] at hsearch ⊢
  refine parse_append (findExport?_of_exportAt? ?_) hsearch
  rwa [String.toList_append, String.toList_ofList]

end

/-- **Comments in front of the export.** If no comment has the words `export default`, the script
exports what it exports without them, or fails with the same error, of which an offset moves by
their length. Else the script is read from the first such words on. -/
theorem parse_comments {comments script : String} (hcomments : Comments comments.toList)
    (hscript : "export default".toList <+: script.toList) :
    (findExport? false comments.toList = none →
      parse (comments ++ script) =
        (parse script).mapError (·.shift (byteLength comments.toList))) ∧
    ∀ rest, findExport? false comments.toList = some rest →
      ∃ front back, comments = front ++ back ∧ exportAt? back.toList = some rest ∧
        parse (comments ++ script) =
          (parse (back ++ script)).mapError (·.shift (byteLength front.toList)) := by
  have hends := hcomments.endsOutside
  have hhead : script.toList.head? = some 'e' := by
    obtain ⟨u, hu⟩ := hscript
    rw [← hu]
    rfl
  constructor
  · intro hnone
    exact parse_behind hends hhead hnone
  · intro rest hsome
    exact exists_parse_of_found hends hhead hsome

theorem parse_comments_card : parse ("// a card\n/* of a page */ " ++ "export default \x7bcss: [1]\x7d") =
    (parse "export default \x7bcss: [1]\x7d").mapError
      (·.shift (byteLength "// a card\n/* of a page */ ".toList)) := by
  have hblock : Comments "/* of a page */ ".toList :=
    .block (w := " of a page ".toList) (by decide +kernel) (.blank (.inl (by decide)) .nil)
  have hline : Comments "// a card\n/* of a page */ ".toList :=
    .line (w := " a card".toList) (by decide) hblock
  exact (parse_comments hline (by decide)).1 (by decide +kernel)

/-- The words in a comment are taken for the export. -/
theorem parse_comments_words : Comments "/* export default */ ".toList ∧
    "export default".toList <+: "export default \x7bname: 'a'\x7d".toList ∧
    parse ("/* export default */ " ++ "export default \x7bname: 'a'\x7d") ≠
      (parse "export default \x7bname: 'a'\x7d").mapError
        (·.shift (byteLength "/* export default */ ".toList)) := by
  refine ⟨.block (w := " export default ".toList) (by decide +kernel) (.blank (.inl (by decide)) .nil),
    by decide, ?_⟩
  intro h
  have hname := congrArg (fun exports => exports.toOption.map (·.name?)) h
  revert hname
  decide +kernel

end Exports

end StaticSite
