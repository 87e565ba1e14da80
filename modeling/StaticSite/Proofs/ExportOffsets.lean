import StaticSite.Proofs.CommentEnds
import StaticSite.Proofs.Preamble

/-!
# Where an export begins

A script exports what stands behind the first place that has the words `export default`, as whole
words with white space between them. `FirstExport` tells this place without the search for it, by its
offset, and `findExport?_iff` says that the search finds it.

The reader of the export gets the text from there on and knows nothing of what stands in front. So
its offsets are relative to the script only because they are told by what is left: a text in front of
the script moves all of them alike, as long as the first export stays the first one, and none of them
lies in front of the literal (`parse_from_export`).
-/

namespace StaticSite.Exports

open Text Literal

variable {p s : List Char} {m m' : Nat} {rest rest' : List Char}

/-! ## Places -/

/-- At an offset of a text stand the words `export default` with white space between them, and
neither is part of a longer word. -/
def ExportAt (s : List Char) (m : Nat) (rest : List Char) : Prop :=
  ∃ front blank, s = front ++ ("export".toList ++ (blank ++ ("default".toList ++ rest))) ∧
    byteLength front = m ∧ EndsOutside front ∧
    blank ≠ [] ∧ (∀ c ∈ blank, isBlank c = true) ∧ ∀ c, rest.head? = some c → isWord c = false

/-- An offset is the first one of a text with the words `export default`, and they have a rest
behind them. -/
structure FirstExport (s : List Char) (m : Nat) (rest : List Char) : Prop where
  /-- the words stand there -/
  here : ExportAt s m rest
  /-- they stand nowhere in front of it -/
  least : ∀ m' rest', ExportAt s m' rest' → m ≤ m'

/-- The words at the start of a text. -/
theorem exportAt?_iff : exportAt? s = some rest ↔
    ∃ blank, s = "export".toList ++ (blank ++ ("default".toList ++ rest)) ∧ blank ≠ [] ∧
      (∀ c ∈ blank, isBlank c = true) ∧ ∀ c, rest.head? = some c → isWord c = false := by
  rw [exportAt?_eq_some]
  constructor
  · rintro ⟨a, rfl, hlt, hdefault, hword⟩
    have ha : a = a.takeWhile isBlank ++ ("default".toList ++ rest) := by
      rw [← hdefault]
      exact List.takeWhile_append_dropWhile.symm
    refine ⟨a.takeWhile isBlank, congrArg _ ha, ?_, fun c hc => List.mem_takeWhile_imp hc, ?_⟩
    · intro hnil
      rw [hnil, List.nil_append, ← hdefault] at ha
      rw [← ha] at hlt
      exact lt_irrefl _ hlt
    · intro c hc
      simpa [hc] using hword
  · rintro ⟨blank, rfl, hne, hblank, hword⟩
    have htrim : trimStart (blank ++ ("default".toList ++ rest)) = "default".toList ++ rest := by
      rw [trimStart, List.dropWhile_append_of_pos hblank]
      exact List.dropWhile_cons_of_neg (by decide)
    refine ⟨_, rfl, ?_, htrim, ?_⟩
    · have hlength : 0 < blank.length := List.length_pos_iff.2 hne
      rw [htrim]
      simp only [List.length_append]
      omega
    · rcases hhead : rest.head? with _ | c
      · rfl
      · exact hword c hhead

/-- The words behind a beginning of a text that has another text in front. -/
def FoundBehind (p s front rest : List Char) : Prop :=
  ∃ back, s = front ++ back ∧ EndsOutside (p ++ front) ∧ exportAt? back = some rest

theorem exportAt_iff : ExportAt s m rest ↔
    ∃ front, byteLength front = m ∧ FoundBehind [] s front rest := by
  constructor
  · rintro ⟨front, blank, hs, hm, hends, hwords⟩
    exact ⟨front, hm, _, hs, hends, exportAt?_iff.2 ⟨blank, rfl, hwords⟩⟩
  · rintro ⟨front, hm, back, hs, hends, hat⟩
    obtain ⟨blank, rfl, hwords⟩ := exportAt?_iff.1 hat
    exact ⟨front, blank, hs, hm, hends, hwords⟩

/-- Another text in front moves a place, unless a word of it goes on up to there. -/
theorem ExportAt.append (hp : EndsOutside p) (h : ExportAt s m rest) :
    ExportAt (p ++ s) (byteLength p + m) rest := by
  obtain ⟨front, blank, rfl, rfl, hends, hwords⟩ := h
  refine ⟨p ++ front, blank, (List.append_assoc ..).symm, byteLength_append .., ?_, hwords⟩
  by_cases hne : front = []
  · rwa [hne, List.append_nil]
  · exact hends.behind p hne

/-- At one place stands one rest, also when the text has another text in front. -/
theorem ExportAt.unique_append (h : ExportAt s m rest)
    (h' : ExportAt (p ++ s) (byteLength p + m) rest') : rest = rest' := by
  obtain ⟨front, rfl, back, rfl, -, hat⟩ := exportAt_iff.1 h
  obtain ⟨front', hlength, back', hs, -, hat'⟩ := exportAt_iff.1 h'
  rw [← List.append_assoc] at hs
  obtain rfl := eq_behind_of_byteLength hs (by rw [hlength, byteLength_append])
  exact Option.some.inj (hat.symm.trans hat')

theorem FirstExport.unique (h : FirstExport s m rest) (h' : FirstExport s m' rest') :
    rest = rest' := by
  obtain rfl := Nat.le_antisymm (h.least _ _ h'.here) (h'.least _ _ h.here)
  refine ExportAt.unique_append (p := []) h.here ?_
  simpa using h'.here

/-- In front of a rest the words stand at one place, since the white space in them goes as far as to
the first word. -/
theorem ExportAt.offset_unique (h : ExportAt s m rest) (h' : ExportAt s m' rest) : m = m' := by
  have hcut {front blank : List Char} (hblank : ∀ c ∈ blank, isBlank c = true) :
      (front ++ ("export".toList ++ blank)).rdropWhile isBlank = front ++ "export".toList := by
    have hlast : (front ++ "export".toList).reverse = 't' :: "ropxe".toList ++ front.reverse :=
      List.reverse_append
    rw [← List.append_assoc, List.rdropWhile, List.reverse_append,
      List.dropWhile_append_of_pos (by simpa using hblank), hlast, List.cons_append,
      List.dropWhile_cons_of_neg (by decide), ← List.cons_append, ← hlast, List.reverse_reverse]
  obtain ⟨front, blank, hs, rfl, -, -, hblank, -⟩ := h
  obtain ⟨front', blank', hs', rfl, -, -, hblank', -⟩ := h'
  have hsame := hs.symm.trans hs'
  simp only [← List.append_assoc, List.append_cancel_right_eq] at hsame
  have hwords := congrArg (List.rdropWhile isBlank) hsame
  rw [List.append_assoc, List.append_assoc, hcut hblank, hcut hblank'] at hwords
  rw [List.append_cancel_right hwords]

/-! ## The search -/

/-- The words stand at the start or behind the first character. -/
theorem foundBehind_cons {c : Char} {front : List Char} : FoundBehind p (c :: s) front rest ↔
    (front = [] ∧ EndsOutside p ∧ exportAt? (c :: s) = some rest) ∨
      ∃ more, front = c :: more ∧ FoundBehind (p ++ [c]) s more rest := by
  constructor
  · rintro ⟨back, hs, hends, hat⟩
    rcases front with _ | ⟨d, more⟩
    · obtain rfl : c :: s = back := hs
      exact .inl ⟨rfl, by simpa using hends, hat⟩
    · obtain ⟨rfl, rfl⟩ := List.cons.inj hs
      exact .inr ⟨more, rfl, back, rfl, by simpa using hends, hat⟩
  · rintro (⟨rfl, hends, hat⟩ | ⟨more, rfl, back, rfl, hends, hat⟩)
    · exact ⟨c :: s, rfl, by simpa using hends, hat⟩
    · exact ⟨back, rfl, by simpa using hends, hat⟩

theorem endsOutside_concat_iff {c : Char} : isWord c = false ↔ EndsOutside (p ++ [c]) := by
  simp [EndsOutside]

/-- What the search gives stands behind the shortest beginning that the words stand behind. -/
theorem findExport?_sound {inWord : Bool} (hword : inWord = false ↔ EndsOutside p)
    (h : findExport? inWord s = some rest) : ∃ front, FoundBehind p s front rest ∧
      ∀ front' rest', FoundBehind p s front' rest' → front <+: front' := by
  induction s generalizing p inWord with
  | nil => cases h
  | cons c s ih =>
    rw [findExport?] at h
    split at h
    · next hat =>
      cases h
      cases inWord with
      | true => cases hat
      | false =>
        refine ⟨[], foundBehind_cons.2 (.inl ⟨rfl, hword.1 rfl, hat⟩), ?_⟩
        exact fun front' rest' _ => List.nil_prefix
    · next hnot =>
      obtain ⟨front, hfound, hleast⟩ := ih endsOutside_concat_iff h
      refine ⟨c :: front, foundBehind_cons.2 (.inr ⟨front, rfl, hfound⟩), ?_⟩
      intro front' rest' hfound'
      obtain ⟨-, hends, hat⟩ | ⟨more, rfl, hmore⟩ := foundBehind_cons.1 hfound'
      · rw [hword.2 hends] at hnot
        cases hnot.symm.trans hat
      · exact (List.prefix_cons_inj c).2 (hleast more rest' hmore)

/-- Where the search finds nothing the words do not stand. -/
theorem findExport?_complete {inWord : Bool} (hword : inWord = false ↔ EndsOutside p)
    (h : findExport? inWord s = none) (front rest : List Char) : ¬ FoundBehind p s front rest := by
  induction s generalizing p inWord front with
  | nil =>
    rintro ⟨back, hs, -, hat⟩
    obtain ⟨rfl, rfl⟩ := List.nil_eq_append_iff.1 hs
    cases hat
  | cons c s ih =>
    rw [findExport?] at h
    split at h
    · cases h
    · next hnot =>
      intro hfound
      obtain ⟨-, hends, hat⟩ | ⟨more, rfl, hmore⟩ := foundBehind_cons.1 hfound
      · rw [hword.2 hends] at hnot
        cases hnot.symm.trans hat
      · exact ih endsOutside_concat_iff h more hmore

theorem endsOutside_nil : EndsOutside [] := by
  intro c hc
  cases hc

theorem byteLength_le_of_prefix (h : p <+: s) : byteLength p ≤ byteLength s := by
  obtain ⟨t, rfl⟩ := h
  rw [byteLength_append]
  exact Nat.le_add_right ..

/-- **The search finds the first place.** -/
theorem findExport?_iff : findExport? false s = some rest ↔ ∃ m, FirstExport s m rest := by
  have hword : false = false ↔ EndsOutside [] := iff_of_true rfl endsOutside_nil
  have hsound {rest : List Char} (h : findExport? false s = some rest) :
      ∃ m, FirstExport s m rest := by
    obtain ⟨front, hfound, hleast⟩ := findExport?_sound hword h
    refine ⟨byteLength front, exportAt_iff.2 ⟨front, rfl, hfound⟩, ?_⟩
    intro m' rest' hat
    obtain ⟨front', rfl, hfound'⟩ := exportAt_iff.1 hat
    exact byteLength_le_of_prefix (hleast front' rest' hfound')
  constructor
  · exact hsound
  · rintro ⟨m, hfirst⟩
    rcases hfind : findExport? false s with _ | rest'
    · obtain ⟨front, -, hfound⟩ := exportAt_iff.1 hfirst.here
      exact absurd hfound (findExport?_complete hword hfind front rest)
    · obtain ⟨m', hfirst'⟩ := hsound hfind
      rw [hfirst.unique hfirst']

theorem ExportAt.first (h : ExportAt s m rest) (hfind : findExport? false s = some rest) :
    FirstExport s m rest := by
  obtain ⟨m', hfirst⟩ := findExport?_iff.1 hfind
  rwa [h.offset_unique hfirst.here]

/-! ## Offsets -/

/-- An error of the reader of literals is at a place of the text that was read. -/
theorem offset_of_outcome {whole : List Char} {x : Except Stop (Data × List Char)}
    {e : LiteralError} (hx : Leaves Prod.snd x rest) (hrest : rest <:+ whole)
    (h : outcome whole x = .error (.literal e)) :
    ∃ before behind, whole = before ++ behind ∧ byteLength before = e.offset ∧ behind <:+ rest := by
  have hplace {behind : List Char} (hbehind : behind <:+ rest)
      (hoffset : e.offset = byteLength whole - byteLength behind) :
      ∃ before behind, whole = before ++ behind ∧ byteLength before = e.offset ∧
        behind <:+ rest := by
    obtain ⟨before, hwhole⟩ := hbehind.trans hrest
    refine ⟨before, behind, hwhole.symm, ?_, hbehind⟩
    rw [hoffset, ← hwhole, byteLength_append, Nat.add_sub_cancel]
  rcases x with stop | ⟨value, _ | ⟨c, more⟩⟩
  · cases h
    exact hplace hx rfl
  · -- with nothing left, only the shape of the value can be wrong
    cases value with
    | object fields =>
      obtain ⟨key, expected, hshape⟩ := shapely_ofFields fields _ h
      cases hshape
    | _ => cases h
  · cases h
    exact hplace hx rfl

/-- **Faults of an export.** A text in front of a script that leaves its first export the first one
changes nothing but offsets: the configuration is the same, or the error is, and the offset of a
fault of the literal is larger by the length of that text. Such an offset is behind a whole character
of the script, at the end of the words `export default` or behind them. -/
theorem parse_from_export {script : String} {m : Nat} {rest : List Char}
    (h : FirstExport script.toList m rest) :
    (∀ (front : String) (rest' : List Char),
      FirstExport (front ++ script).toList (byteLength front.toList + m) rest' →
        parse (front ++ script) = (parse script).mapError (·.shift (byteLength front.toList))) ∧
    ∀ e, parse script = .error (.literal e) →
      (∃ before behind, script.toList = before ++ behind ∧ byteLength before = e.offset) ∧
      byteLength script.toList - byteLength rest ≤ e.offset ∧
      e.offset ≤ byteLength script.toList := by
  have hfind := findExport?_iff.2 ⟨m, h⟩
  constructor
  · intro front rest' hfirst
    have hsame : rest = rest' := h.here.unique_append (String.toList_append ▸ hfirst.here)
    exact parse_append hfind (hsame ▸ findExport?_iff.2 ⟨_, hfirst⟩)
  · intro e he
    rw [parse_of_some hfind] at he
    obtain ⟨before, behind, hscript, hoffset, t, rfl⟩ :=
      offset_of_outcome (leaves_readExport rest) (suffix_of_findExport? hfind) he
    refine ⟨⟨before, behind, hscript, hoffset⟩, ?_⟩
    rw [hscript, ← hoffset]
    simp only [byteLength_append]
    omega

/-- A script with a comment in front of its export, in which a list is closed by a brace. -/
def bracedScript : String := "// é\nexport  default [1 \x7d"

theorem parse_from_export_bracedScript :
    let front := "let a;\n"
    let rest := " [1 \x7d".toList
    let e : LiteralError := ⟨"expected `]`, found `\x7d`", 25⟩
    FirstExport bracedScript.toList 6 rest ∧
      FirstExport (front ++ bracedScript).toList (byteLength front.toList + 6) rest ∧
      parse (front ++ bracedScript) =
        (parse bracedScript).mapError (·.shift (byteLength front.toList)) ∧
      parse bracedScript = .error (.literal e) ∧
      (∃ before behind, bracedScript.toList = before ++ behind ∧ byteLength before = e.offset) ∧
      byteLength bracedScript.toList - byteLength rest ≤ e.offset ∧
      e.offset ≤ byteLength bracedScript.toList := by
  intro front rest e
  have hblank : ∀ c ∈ "  ".toList, isBlank c = true := List.all_eq_true.1 (by decide)
  have hends {s : List Char} : EndsOutside (s ++ ['\n']) := endsOutside_concat_iff.1 (by decide)
  have hrest : ∀ c, rest.head? = some c → isWord c = false := by
    rintro _ ⟨⟩
    decide
  have hat : ExportAt bracedScript.toList 6 rest :=
    ⟨"// é\n".toList, "  ".toList, by decide, rfl, hends (s := "// é".toList), by decide, hblank,
      hrest⟩
  have hat' : ExportAt (front ++ bracedScript).toList (byteLength front.toList + 6) rest := by
    have hfront : EndsOutside "let a;\n".toList := hends (s := "let a;".toList)
    rw [String.toList_append]
    exact hat.append hfront
  have hfirst := hat.first (by decide +kernel)
  have hfirst' := hat'.first (by decide +kernel)
  have herror : (match parse bracedScript with | .ok _ => none | .error e => some e) =
      some (.literal e) := by
    decide +kernel
  have hparse : parse bracedScript = .error (.literal e) := by
    rcases hscript : parse bracedScript with e' | exports
    · rw [hscript] at herror
      exact congrArg Except.error (Option.some.inj herror)
    · rw [hscript] at herror
      cases herror
  obtain ⟨hshift, hoffset⟩ := parse_from_export hfirst
  exact ⟨hfirst, hfirst', hshift front rest hfirst', hparse, hoffset e hparse⟩

end StaticSite.Exports
