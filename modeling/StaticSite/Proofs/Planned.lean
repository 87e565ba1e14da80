import StaticSite.Proofs.Delivery
import StaticSite.Proofs.Documents

/-!
# Planned outputs

A plan puts each document below the output directory and no two of them in the same place, but for
pages with the name `..`. The check for documents in one place compares the parts of their paths; so
it finds those that lead to one place by the same names, and these are all where no name is `..`
(`outputPath_cases`). A page `...vue` has that name, and no route can give it to a page
(`fillName_eq_of_dots`).
-/

namespace StaticSite

open Text

namespace Path

variable {p q : Path} {names : List String}

/-! ## Parts of paths put together -/

theorem parts_of_empty (h : p.text = "") : p.parts = [] := by
  obtain ⟨text⟩ := p
  obtain rfl : text = "" := h
  decide

theorem join_of_empty (h : p.text = "") (hq : q.isAbsolute = false) : p.join q = q := by
  rw [join, hq, if_neg Bool.false_ne_true, if_pos (.inl h), h, String.empty_append]

/-- A relative path behind another path adds what its stretches spell. -/
theorem parts_join (h : p.text ≠ "") (hq : q.isAbsolute = false) :
    (p.join q).parts = p.parts ++ q.segments.filterMap partOf? := by
  have hbody : (p.join q).body = p.frontBody ++ q.segments := by
    rw [body, frontBody, head?_join hq h, segments_join p hq]
    split
    · rw [List.tail_append_of_ne_nil (front_ne_nil h)]
    · rfl
  rw [parts, head?_join hq h, hbody, List.filterMap_append, parts_eq h, List.append_assoc]

theorem partOf?_of_isFileName {name : String} (h : IsFileName name) :
    partOf? name = some (.name name) := by
  rw [partOf?, if_neg (by simp [isIdle_of_isFileName h]), if_neg h.noDots.2]

theorem filterMap_partOf? (h : ∀ name ∈ names, IsFileName name) :
    names.filterMap partOf? = names.map Part.name := by
  induction names with
  | nil => rfl
  | cons name names ih =>
    rw [List.filterMap_cons_some (partOf?_of_isFileName (h name List.mem_cons_self)),
      ih fun n hn => h n (List.mem_cons_of_mem _ hn), List.map_cons]

/-! ## Paths of names -/

/-- A relative path of which the stretches spell names and nothing else. -/
structure Spells (q : Path) (names : List String) : Prop where
  /-- it does not start at the root -/
  relative : q.isAbsolute = false
  /-- its parts are the names -/
  parts_eq : q.parts = names.map Part.name
  /-- no stretch spells anything else -/
  segments_eq : q.segments.filterMap partOf? = names.map Part.name

theorem partOf?_eq_name {segment name : String} (h : partOf? segment = some (.name name)) :
    segment = name ∧ segment ≠ ".." ∧ isIdle segment = false := by
  rw [partOf?] at h
  split at h
  · cases h
  · next hidle =>
    split at h
    · cases h
    · next hup =>
      cases h
      exact ⟨rfl, hup, Bool.eq_false_iff.2 hidle⟩

/-- The head of a path is no name. -/
theorem spells_of_parts (h : q.parts = names.map Part.name) : q.Spells names := by
  have hnames : ∀ part ∈ q.parts, ∃ name, part = .name name := by
    rw [h]
    intro part hpart
    obtain ⟨name, -, rfl⟩ := List.mem_map.1 hpart
    exact ⟨name, rfl⟩
  have hhead : q.head? = none := by
    rcases hpart : q.head? with _ | part
    · rfl
    · obtain ⟨name, rfl⟩ := hnames part (by simp [parts, hpart])
      rw [head?] at hpart
      split at hpart
      · cases hpart
      · split at hpart <;> cases hpart
  refine ⟨?_, h, ?_⟩
  · rw [head?] at hhead
    split at hhead
    · cases hhead
    · next habsolute => exact Bool.eq_false_iff.2 habsolute
  · rw [parts, body, hhead] at h
    exact h

theorem mem_segments_of_spells (h : q.Spells names) {name : String} (hname : name ∈ names) :
    name ∈ q.segments := by
  have hmem : Part.name name ∈ q.segments.filterMap partOf? := by
    rw [h.segments_eq]
    exact List.mem_map_of_mem hname
  obtain ⟨segment, hsegment, hpart⟩ := List.mem_filterMap.1 hmem
  rwa [← (partOf?_eq_name hpart).1]

/-- Stretches that spell names lead on by those names. -/
theorem foldl_lead_of_filterMap {segments : List String} (l : Location)
    (h : segments.filterMap partOf? = names.map Part.name) :
    segments.foldl lead l = l ++ names := by
  induction segments generalizing l names with
  | nil =>
    obtain rfl : names = [] := List.map_eq_nil_iff.1 h.symm
    rw [List.foldl_nil, List.append_nil]
  | cons segment segments ih =>
    rw [List.foldl_cons]
    by_cases hidle : isIdle segment = true
    · rw [List.filterMap_cons_none (by rw [partOf?, if_pos hidle])] at h
      rw [lead, if_pos hidle, ih l h]
    · obtain ⟨part, hpart⟩ := exists_partOf? hidle
      rw [List.filterMap_cons_some hpart] at h
      obtain ⟨name, names, rfl, hname, hnames⟩ := List.map_eq_cons_iff.1 h.symm
      obtain ⟨rfl, hup, -⟩ := partOf?_eq_name (hname ▸ hpart)
      rw [lead, if_neg hidle, if_neg hup, ih _ hnames.symm, List.append_assoc]
      rfl

/-- Names behind a path are its last parts. -/
theorem parts_join_names (p : Path) (h : q.Spells names) :
    (p.join q).parts = p.parts ++ names.map Part.name := by
  by_cases htext : p.text = ""
  · rw [join_of_empty htext h.relative, parts_of_empty htext, h.parts_eq, List.nil_append]
  · rw [parts_join htext h.relative, h.segments_eq]

/-- Names behind a path lead on from its place. -/
theorem place_join_names (here : Location) (p : Path) (h : q.Spells names) :
    (p.join q).place here = p.place here ++ names := by
  rw [place_join here p h.relative, foldl_lead_of_filterMap _ h.segments_eq]

theorem spells_intercalate (h : ∀ name ∈ names, IsFileName name) :
    (⟨"/".intercalate names⟩ : Path).Spells names := by
  refine spells_of_parts ?_
  rcases names with _ | ⟨name, names⟩
  · have hself : (⟨"/".intercalate []⟩ : Path) = ⟨""⟩ := rfl
    rw [hself, parts_of_empty rfl]
    rfl
  · rw [parts, body, head?_intercalate h, segments_intercalate h (List.cons_ne_nil _ _),
      ← filterMap_partOf? h]
    rfl

theorem parts_join_intercalate (p : Path)
    (h : ∀ name ∈ names, IsFileName name) :
    (p.join ⟨"/".intercalate names⟩).parts = p.parts ++ names.map Part.name :=
  parts_join_names p (spells_intercalate h)

/-- A name behind a path is its last part. Only behind the empty path a single dot is a part too. -/
theorem parts_child {name : String} (hslash : '/' ∉ name.toList) (h : p.text ≠ "" ∨ name ≠ ".") :
    (p.child name).parts = p.parts ++ (partOf? name).toList := by
  have hlist : [name].filterMap partOf? = (partOf? name).toList := by
    rcases hpart : partOf? name with _ | part <;> simp [hpart]
  by_cases htext : p.text = ""
  · have hdot := h.resolve_left (not_not.2 htext)
    have hhead : (⟨name⟩ : Path).head? = none := by
      rw [head?, isAbsolute_of_plain hslash, segments_of_plain hslash]
      simp [hdot]
    rw [child, join_of_empty htext (isAbsolute_of_plain hslash), parts_of_empty htext, parts, body,
      hhead, segments_of_plain hslash, ← hlist]
    rfl
  · rw [child, parts_join htext (isAbsolute_of_plain hslash), segments_of_plain hslash, hlist]

/-- Any name but `..` leads to where it says. -/
theorem lead_of_ne_dots {name : String} (h : name ≠ "..") :
    ∃ names : List String, (∀ l, lead l name = l ++ names) ∧
      (partOf? name).toList = names.map Part.name := by
  by_cases hidle : isIdle name = true
  · refine ⟨[], fun l => ?_, ?_⟩
    · rw [lead, if_pos hidle, List.append_nil]
    · rw [partOf?, if_pos hidle]
      rfl
  · refine ⟨[name], fun l => ?_, ?_⟩
    · rw [lead, if_neg hidle, if_neg h]
    · rw [partOf?, if_neg hidle, if_neg h]
      rfl

end Path

/-! ## Names of pages -/

namespace NamePiece

/-- A name without placeholders is its characters. -/
theorem ofName_of_forall_plain {s : List Char} (h : ∀ piece ∈ ofName s, ∃ c, piece = .plain c) :
    ofName s = s.map .plain := by
  fun_induction ofName s with
  | case1 => rfl
  | case2 c s name rest hplaceholder ih =>
    obtain ⟨c, hc⟩ := h _ List.mem_cons_self
    cases hc
  | case3 c s hnone ih =>
    rw [List.map_cons, ih fun piece hpiece => h piece (List.mem_cons_of_mem _ hpiece)]

theorem ofName_of_notMem {s : List Char} (h : '[' ∉ s) : ofName s = s.map .plain := by
  refine ofName_of_forall_plain fun piece hpiece => ?_
  fun_induction ofName s with
  | case1 => exact absurd hpiece List.not_mem_nil
  | case2 c s name rest hplaceholder ih =>
    unfold placeholderAt? at hplaceholder
    split at hplaceholder
    · next heq =>
      cases heq
      exact absurd List.mem_cons_self h
    · cases hplaceholder
  | case3 c s hnone ih =>
    obtain rfl | hpiece := List.mem_cons.1 hpiece
    · exact ⟨c, rfl⟩
    · exact ih (fun hmem => h (List.mem_cons_of_mem _ hmem)) hpiece

end NamePiece

namespace Page

variable {source : Path} {index : Nat} {params : Dict String}

/-- A value of a route has more than dots. -/
theorem exists_ne_dot_of_isSafeValue {value : String} (h : isSafeValue value = true) :
    ∃ c ∈ value.toList, c ≠ '.' := by
  by_contra hdots
  have hall : ∀ c ∈ value.toList, c = '.' := by
    intro c hc
    by_contra hne
    exact hdots ⟨c, hc, hne⟩
  rcases hvalue : value.toList with _ | ⟨c, _ | ⟨d, s⟩⟩
  · simp [isSafeValue, String.toList_eq_nil_iff.1 hvalue] at h
  · obtain rfl : c = '.' := hall c (by simp [hvalue])
    obtain rfl : value = "." := String.toList_inj.1 hvalue
    revert h
    decide
  · obtain rfl : c = '.' := hall c (by simp [hvalue])
    obtain rfl : d = '.' := hall d (by simp [hvalue])
    have hcut : cut? ['.', '.'] ('.' :: '.' :: s) = some ([], s) := cut?_of_startsWith? rfl
    simp [isSafeValue, hvalue, hcut] at h

theorem mapM_fillPiece_plain (s : List Char) :
    (s.map NamePiece.plain).mapM (fillPiece source index params) = .ok (s.map fun c => [c]) := by
  induction s with
  | nil => rfl
  | cons c s ih =>
    rw [List.map_cons, List.mapM_cons, ih]
    rfl

/-- A name of dots is what the page is called: no route has put anything into it. -/
theorem fillName_eq_of_dots {stem name : String}
    (h : fillName source index params stem = .ok name) (hdots : ∀ c ∈ name.toList, c = '.') :
    name = stem := by
  rw [fillName] at h
  obtain ⟨pieces, hpieces, h⟩ := bind_eq_ok h
  cases h
  have hplain : ∀ piece ∈ NamePiece.ofName stem.toList, ∃ c, piece = .plain c := by
    intro piece hpiece
    cases piece with
    | plain c => exact ⟨c, rfl⟩
    | placeholder param =>
      obtain ⟨chars, hchars, hfill⟩ := exists_of_mem_right (mapM_eq_ok hpieces).flip hpiece
      simp only [fillPiece] at hfill
      split at hfill
      · cases hfill
      · split at hfill
        · next hsafe =>
          cases hfill
          obtain ⟨c, hc, hne⟩ := exists_ne_dot_of_isSafeValue hsafe
          refine absurd (hdots c ?_) hne
          rw [String.toList_ofList]
          exact List.mem_flatten_of_mem hchars hc
        · cases hfill
  rw [NamePiece.ofName_of_forall_plain hplain, mapM_fillPiece_plain] at hpieces
  cases hpieces
  rw [← List.flatMap_def, List.flatMap_singleton', String.ofList_toList]

theorem fillName_dots : fillName source index params ".." = .ok ".." := by
  rw [fillName, NamePiece.ofName_of_notMem (by decide), mapM_fillPiece_plain]
  rfl

theorem parts_mirrored (output : Path) {names : List String}
    (h : ∀ name ∈ names, IsFileName name) :
    (mirrored output names).parts = output.parts ++ names.dropLast.map Path.Part.name :=
  Path.parts_join_intercalate output (isFileName_of_mem_dropLast h)

theorem parts_index (dir : Path) :
    (dir.child "index.html").parts = dir.parts ++ [.name "index.html"] := by
  rw [Path.parts_child isFileName_index.plain.1 (.inr (by decide)),
    Path.partOf?_of_isFileName isFileName_index, Option.toList_some]

theorem text_mirrored_ne {output : Path} {names : List String} (houtput : output.text ≠ "")
    (h : ∀ name ∈ names, IsFileName name) : (mirrored output names).text ≠ "" :=
  Path.text_join_ne (Path.isAbsolute_intercalate (isFileName_of_mem_dropLast h)) houtput

/-- **Where a page goes.** Its document lies below the output directory, by names that are the parts
of its path too; or the page is called `..`, and its document lies in the directory above the one of
the other pages beside it. The parts have a dot in front if the output directory is the empty path
and the page is called `.`. -/
theorem outputPath_cases {pages output p : Path} {route? : Option (Nat × Route)}
    (h : outputPath pages output source route? = .ok p) (hpages : pages.text ≠ "")
    {names : List String} (hnames : ∀ name ∈ names, IsFileName name)
    (hsource : source = names.foldl Path.child pages) :
    (source.stem? ≠ some ".." ∧ ∃ xs, xs ≠ [] ∧
      (∀ here, p.place here = output.place here ++ xs) ∧
      (output.text ≠ "" ∨ source.stem? ≠ some "." → p.parts = output.parts ++ xs.map Path.Part.name)) ∨
    (source.stem? = some ".." ∧ ∀ here,
      p.place here = (output.place here ++ names.dropLast).dropLast ++ ["index.html"]) := by
  have hplace (here : Location) := place_mirrored here output hnames
  have hparts := parts_mirrored output hnames
  obtain ⟨hstem, rfl⟩ | ⟨index, params, name, hname, hplain, rfl⟩ :=
    outputPath_eq_ok h hpages hnames hsource
  · refine .inl ⟨?_, names.dropLast ++ ["index.html"], by simp, fun here => ?_, fun _ => ?_⟩
    · rw [hstem]
      decide
    · rw [place_index, hplace, List.append_assoc]
    · rw [parts_index, hparts, List.map_append, List.append_assoc]
      rfl
  · have hlead (here : Location) :
        (((mirrored output names).child name).child "index.html").place here =
          Path.lead (output.place here ++ names.dropLast) name ++ ["index.html"] := by
      rw [place_index, Path.place_child here _ hplain, hplace]
    by_cases hup : name = ".."
    · subst hup
      have hstem := fillName_eq_of_dots hname (by simp)
      exact .inr ⟨stem?_of_getD hstem.symm (by decide), hlead⟩
    · obtain ⟨last, hlast, hpart⟩ := Path.lead_of_ne_dots hup
      refine .inl ⟨?_, names.dropLast ++ last ++ ["index.html"], by simp, fun here => ?_, ?_⟩
      · intro hstem
        rw [hstem, Option.getD_some, fillName_dots] at hname
        exact hup (Except.ok.inj hname).symm
      · rw [hlead, hlast, List.append_assoc, List.append_assoc, List.append_assoc]
      · intro hdot
        have hdir : (mirrored output names).text ≠ "" ∨ name ≠ "." := by
          refine hdot.imp (fun houtput => text_mirrored_ne houtput hnames) fun hstem hname' => ?_
          subst hname'
          have hname' := fillName_eq_of_dots hname (by simp)
          exact hstem (stem?_of_getD hname'.symm (by decide))
        rw [parts_index, Path.parts_child hplain hdir, hparts, hpart]
        simp

end Page

namespace Site

/-! ## Plans -/

/-- A page that is called `..` and lies directly in the directory of pages, or takes its place. -/
def Climbs (settings : BuildSettings) (source : Path) : Prop :=
  source.stem? = some ".." ∧ ∃ names : List String, names.length ≤ 1 ∧
    (∀ name ∈ names, IsFileName name) ∧ source = names.foldl Path.child settings.pages

/-- A page of which the name spells the way up, or nothing behind the empty path. -/
def Detours (settings : BuildSettings) (source : Path) : Prop :=
  source.stem? = some ".." ∨ (settings.output.text = "" ∧ source.stem? = some ".")

section

variable {d : Disk} {settings : BuildSettings} {runtime : Runtime} {jobs : List PageJob}
  {job : PageJob}

/-- No document that passes the check has the path of an earlier one. -/
theorem pairwise_of_checkOutputs {before : List PageJob}
    (h : checkOutputs before jobs = .ok ()) :
    (∀ a ∈ before, ∀ b ∈ jobs, a.output.parts ≠ b.output.parts) ∧
      jobs.Pairwise fun a b => a.output.parts ≠ b.output.parts := by
  induction jobs generalizing before with
  | nil => exact ⟨fun a ha b hb => absurd hb List.not_mem_nil, List.Pairwise.nil⟩
  | cons job jobs ih =>
    rw [checkOutputs] at h
    split at h
    · cases h
    · next hnone =>
      obtain ⟨hbefore, hjobs⟩ := ih h
      have hjob : ∀ a ∈ before, a.output.parts ≠ job.output.parts := by
        intro a ha hparts
        have hsame := List.find?_eq_none.1 hnone a ha
        exact hsame (by simp [Path.same, hparts])
      refine ⟨?_, List.pairwise_cons.2 ⟨?_, hjobs⟩⟩
      · intro a ha b hb
        obtain rfl | hb := List.mem_cons.1 hb
        · exact hjob a ha
        · exact hbefore a (List.mem_append_left _ ha) b hb
      · intro b hb
        exact hbefore job (by simp) b hb

/-- A planned document lies below the output directory, unless its page climbs out of it. -/
theorem below_iff_of_mem_plan (h : plan d settings runtime = .ok jobs) (hjob : job ∈ jobs)
    (here : Location) : Below (settings.output.place here) (job.output.place here) ↔
      ¬ (Climbs settings job.source ∧ settings.output.place here ≠ []) := by
  obtain ⟨route?, houtput, hpages, names, hnames, hsource⟩ := exists_of_mem_plan h hjob
  obtain ⟨hup, xs, hne, hplace, -⟩ | ⟨hup, hplace⟩ :=
    Page.outputPath_cases houtput hpages hnames hsource
  · refine iff_of_true ⟨⟨xs, (hplace here).symm⟩, ?_⟩ fun hclimbs => hup hclimbs.1.1
    rw [hplace here]
    simpa using hne
  · rcases List.eq_nil_or_concat names.dropLast with hdirs | ⟨dirs, last, hdirs⟩
    · have hclimbs : Climbs settings job.source := by
        refine ⟨hup, names, ?_, hnames, hsource⟩
        have hlength : names.dropLast.length = names.length - 1 := List.length_dropLast
        rw [hdirs, List.length_nil] at hlength
        omega
      rw [hplace here, hdirs, List.append_nil]
      by_cases hout : settings.output.place here = []
      · rw [hout]
        exact iff_of_true ⟨List.nil_prefix, by simp⟩ fun h => h.2 rfl
      · -- the place is as long as the output, so that it cannot lie below
        refine iff_of_false (fun hbelow => hbelow.2 (hbelow.1.eq_of_length ?_).symm) ?_
        · rw [List.length_append, List.length_dropLast, List.length_singleton]
          exact (Nat.sub_add_cancel (List.length_pos_iff.2 hout)).symm
        · exact fun h => h ⟨hclimbs, hout⟩
    · rw [hplace here, hdirs, List.concat_eq_append, ← List.append_assoc, List.dropLast_concat]
      refine iff_of_true ⟨?_, by simp⟩ ?_
      · rw [List.append_assoc]
        exact List.prefix_append _ _
      · rintro ⟨⟨-, others, hshort, hothers, heq⟩, -⟩
        have hfront := congrArg Path.front (hsource.symm.trans heq)
        rw [Path.front_foldl_child _ hnames, Path.front_foldl_child _ hothers] at hfront
        obtain rfl : names = others := List.append_cancel_left hfront
        have hlength := congrArg List.length hdirs
        rw [List.length_dropLast, List.concat_eq_append, List.length_append,
          List.length_singleton] at hlength
        omega

/-- Where no page makes a detour, the names that lead to its document from the output directory are
the parts of its path. -/
theorem names_of_mem_plan (h : plan d settings runtime = .ok jobs) (hjob : job ∈ jobs)
    (hdetours : ¬ Detours settings job.source) : ∃ xs : List String,
      (∀ here, job.output.place here = settings.output.place here ++ xs) ∧
      job.output.parts = settings.output.parts ++ xs.map Path.Part.name := by
  rw [Detours, not_or, not_and_or] at hdetours
  obtain ⟨route?, houtput, hpages, names, hnames, hsource⟩ := exists_of_mem_plan h hjob
  obtain ⟨-, xs, -, hplace, hparts⟩ | ⟨hup, -⟩ :=
    Page.outputPath_cases houtput hpages hnames hsource
  · exact ⟨xs, hplace, hparts hdetours.2⟩
  · exact absurd hup hdetours.1

theorem pairwise_of_plan (h : plan d settings runtime = .ok jobs) :
    jobs.Pairwise fun a b => a.output.parts ≠ b.output.parts := by
  rw [plan] at h
  obtain ⟨planned, -, h⟩ := bind_eq_ok h
  obtain ⟨_, hcheck, h⟩ := bind_eq_ok h
  cases h
  exact (pairwise_of_checkOutputs hcheck).2

/-- **Planned outputs.** Where a plan succeeds, each document lies strictly below the output
directory, unless its page is called `..` and lies directly in the directory of pages; and no two
documents lie in the same place, unless a page of theirs is called `..` (or `.`, with the empty path
for the output directory). -/
theorem plan_outputs (h : plan d settings runtime = .ok jobs) (here : Location) :
    (∀ job ∈ jobs, Below (settings.output.place here) (job.output.place here) ↔
      ¬ (Climbs settings job.source ∧ settings.output.place here ≠ [])) ∧
    jobs.Pairwise fun a b => a.output.place here = b.output.place here →
      Detours settings a.source ∨ Detours settings b.source := by
  refine ⟨fun job hjob => below_iff_of_mem_plan h hjob here, ?_⟩
  refine (pairwise_of_plan h).imp_of_mem fun {a b} ha hb hparts hplace => ?_
  by_contra hdetours
  obtain ⟨xs, hxs, hxparts⟩ := names_of_mem_plan h ha fun h => hdetours (.inl h)
  obtain ⟨ys, hys, hyparts⟩ := names_of_mem_plan h hb fun h => hdetours (.inr h)
  rw [hxs here, hys here] at hplace
  obtain rfl : xs = ys := List.append_cancel_left hplace
  exact hparts (hxparts.trans hyparts.symm)

end

/-- Two pages, of which the one called `..` lies in a directory of its own. -/
def climbing : Disk :=
  let put (t? : Option FileTree) (dir : Location) (name : String) (entry : Entry) :=
    t?.bind fun t => t.put? dir name entry
  let pages := put (put (some .empty) [] "pages" .directory) ["pages"] "index.vue"
    (.file "<template>page</template>".toUTF8)
  let sub := put (put pages ["pages"] "sub" .directory) ["pages", "sub"] "...vue"
    (.file "<template>up</template>".toUTF8)
  ⟨sub.getD .empty, []⟩

theorem exists_plan_climbing : ∃ jobs, plan climbing {} = .ok jobs ∧
    jobs.map (·.output) = [⟨"dist/index.html"⟩, ⟨"dist/sub/../index.html"⟩] := by
  have houtputs : (plan climbing {}).toOption.map (·.map (·.output)) =
      some [⟨"dist/index.html"⟩, ⟨"dist/sub/../index.html"⟩] := by
    decide +kernel
  rcases hplan : plan climbing {} with e | jobs
  · rw [hplan] at houtputs
    cases houtputs
  · rw [hplan] at houtputs
    exact ⟨jobs, rfl, Option.some.inj houtputs⟩

theorem plan_outputs_climbing : ∃ jobs, plan climbing {} = .ok jobs ∧
    (∀ job ∈ jobs, Below ["dist"] (job.output.place []) ↔
      ¬ (Climbs {} job.source ∧ ["dist"] ≠ [])) ∧
    jobs.Pairwise fun a b => a.output.place [] = b.output.place [] →
      Detours {} a.source ∨ Detours {} b.source := by
  obtain ⟨jobs, hplan, -⟩ := exists_plan_climbing
  have hplace : Path.place [] ⟨"dist"⟩ = ["dist"] := by decide +kernel
  have h := plan_outputs hplan []
  rw [hplace] at h
  exact ⟨jobs, hplan, h⟩

/-- Not all planned outputs are in places of their own: a page called `..` goes where the index of
the directory above goes. -/
theorem plan_outputs_clash :
    ¬ ∀ (d : Disk) (settings : BuildSettings) (jobs : List PageJob) (here : Location),
      plan d settings = .ok jobs →
        (∀ job ∈ jobs, Below (settings.output.place here) (job.output.place here)) ∧
        jobs.Pairwise fun a b => a.output.place here ≠ b.output.place here := by
  intro h
  obtain ⟨jobs, hplan, houtputs⟩ := exists_plan_climbing
  have hpaths : (jobs.map (·.output)).Pairwise fun p q => p.place [] ≠ q.place [] :=
    List.pairwise_map.2 (h climbing {} jobs [] hplan).2
  rw [houtputs] at hpaths
  revert hpaths
  decide +kernel

end Site

end StaticSite
