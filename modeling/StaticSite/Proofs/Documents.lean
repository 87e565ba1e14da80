import StaticSite.Proofs.Schedules
import StaticSite.Proofs.Walks
import StaticSite.Site.Build

/-!
# Where documents lie

The document of a page is called `index.html`. Its directory lies below the output directory, as the
page lies below the directory of pages, and is the output directory itself for some. One page leads
above it: a file `...vue` has the name `..`, so that its document lies in the directory above the one
where others would lie.
-/

namespace StaticSite

open Text

/-! ## Names of pages -/

theorem NamePiece.mem_of_mem_placeholderAt? {s name rest : List Char} {c : Char}
    (h : placeholderAt? s = some (name, rest)) (hc : c ∈ rest) : c ∈ s := by
  unfold placeholderAt? at h
  split at h
  · next t =>
    split at h
    · next r hd =>
      split at h
      · cases h
      · cases h
        have hsuffix := List.dropWhile_suffix (l := t) isWord
        rw [hd] at hsuffix
        exact List.mem_cons_of_mem _ (hsuffix.subset (List.mem_cons_of_mem _ hc))
    · cases h
  · cases h

theorem NamePiece.mem_of_plain {s : List Char} {c : Char} (h : plain c ∈ ofName s) : c ∈ s := by
  fun_induction ofName s with
  | case1 => exact absurd h List.not_mem_nil
  | case2 b s name rest hplaceholder ih =>
    rcases List.mem_cons.1 h with heq | h
    · cases heq
    · exact mem_of_mem_placeholderAt? hplaceholder (ih h)
  | case3 b s hnone ih =>
    rcases List.mem_cons.1 h with heq | h
    · cases heq
      exact List.mem_cons_self
    · exact List.mem_cons_of_mem _ (ih h)

namespace Page

theorem notMem_of_isSafeValue {value : String} (h : isSafeValue value = true) :
    '/' ∉ value.toList := by
  intro hslash
  simp [isSafeValue, hslash] at h

theorem notMem_fillPiece {source : Path} {index : Nat} {params : Dict String} {piece : NamePiece}
    {chars : List Char} (h : fillPiece source index params piece = .ok chars)
    (hplain : ∀ c, piece = .plain c → c ≠ '/') : '/' ∉ chars := by
  rcases piece with c | name
  · cases h
    rw [List.mem_singleton]
    exact (hplain c rfl).symm
  · simp only [fillPiece] at h
    split at h
    · cases h
    · split at h
      · next hsafe =>
        cases h
        exact notMem_of_isSafeValue hsafe
      · cases h

/-- A route cannot put a slash into the name of a page. -/
theorem notMem_fillName {source : Path} {index : Nat} {params : Dict String} {stem name : String}
    (h : fillName source index params stem = .ok name) (hstem : '/' ∉ stem.toList) :
    '/' ∉ name.toList := by
  rw [fillName] at h
  obtain ⟨pieces, hpieces, h⟩ := bind_eq_ok h
  cases h
  rw [String.toList_ofList, List.mem_flatten]
  rintro ⟨chars, hchars, hslash⟩
  obtain ⟨piece, hpiece, hfill⟩ := exists_of_mem_right (mapM_eq_ok hpieces) hchars
  refine notMem_fillPiece hfill (fun c hc hslash' => ?_) hslash
  subst hc hslash'
  exact hstem (NamePiece.mem_of_plain hpiece)

end Page

namespace Path

theorem notMem_segment {p : Path} {segment : String} (h : segment ∈ p.segments) :
    '/' ∉ segment.toList := by
  obtain ⟨part, hpart, rfl⟩ := List.mem_map.1 h
  rw [String.toList_ofList]
  exact notMem_of_mem_splitOn hpart

theorem mem_segments_of_fileName? {p : Path} {name : String} (h : p.fileName? = some name) :
    name ∈ p.segments := by
  have hmem : name ∈ dropIdleEnd p.body := by
    rw [fileName?] at h
    split at h
    · cases h
    · exact List.mem_of_getLast? h
  have hbody : name ∈ p.body := by
    rw [dropIdleEnd, List.mem_reverse] at hmem
    exact List.mem_reverse.1 ((List.dropWhile_suffix _).subset hmem)
  rw [body] at hbody
  split at hbody
  · exact List.mem_of_mem_tail hbody
  · exact hbody

theorem mem_of_mem_splitName {name : String} {c : Char} (h : c ∈ (splitName name).1.toList) :
    c ∈ name.toList := by
  rw [splitName] at h
  split at h
  · exact h
  · exact h
  · next dot stem hdrop =>
    rw [String.toList_ofList, List.mem_reverse] at h
    have hsuffix := List.dropWhile_suffix (l := name.toList.reverse) (· ≠ '.')
    rw [hdrop] at hsuffix
    exact List.mem_reverse.1 (hsuffix.subset (List.mem_cons_of_mem _ h))

theorem notMem_stem (p : Path) : '/' ∉ (p.stem?.getD "").toList := by
  rw [stem?]
  rcases hname : p.fileName? with _ | name
  · exact List.not_mem_nil
  · exact fun h => notMem_segment (mem_segments_of_fileName? hname) (mem_of_mem_splitName h)

end Path

/-! ## Planned documents -/

namespace Page

variable {here : Location} {pages output source p : Path} {route? : Option (Nat × Route)}
variable {names : List String}

/-- The directory that lies below the output as that of a page lies below the directory of pages. -/
def mirrored (output : Path) (names : List String) : Path :=
  output.join ⟨"/".intercalate names.dropLast⟩

theorem isFileName_of_mem_dropLast (h : ∀ name ∈ names, IsFileName name) :
    ∀ name ∈ names.dropLast, IsFileName name :=
  fun name hmem => h name (List.dropLast_subset _ hmem)

theorem place_mirrored (here : Location) (output : Path) (h : ∀ name ∈ names, IsFileName name) :
    (mirrored output names).place here = output.place here ++ names.dropLast :=
  Path.place_join_intercalate here output (isFileName_of_mem_dropLast h)

theorem isFileName_index : IsFileName "index.html" := by decide

theorem place_index (here : Location) (dir : Path) :
    (dir.child "index.html").place here = dir.place here ++ ["index.html"] := by
  rw [Path.place_child here _ isFileName_index.plain.1, Path.lead_of_isFileName isFileName_index]

/-- The last name of the file of a page without its extension. -/
theorem stem?_of_getD {stem : String} (h : source.stem?.getD "" = stem) (hne : stem ≠ "") :
    source.stem? = some stem := by
  cases hstem : source.stem? with
  | none =>
    rw [hstem] at h
    exact absurd h.symm hne
  | some name => rw [← h, hstem, Option.getD_some]

/-- **What a page becomes**: the index of the directory that mirrors its own, or of a directory in
there that is named as the page is. -/
theorem outputPath_eq_ok (h : outputPath pages output source route? = .ok p)
    (hpages : pages.text ≠ "") (hnames : ∀ name ∈ names, IsFileName name)
    (hsource : source = names.foldl Path.child pages) :
    (source.stem? = some "index" ∧ p = (mirrored output names).child "index.html") ∨
    ∃ index params name, fillName source index params (source.stem?.getD "") = .ok name ∧
      '/' ∉ name.toList ∧ p = ((mirrored output names).child name).child "index.html" := by
  have hrelative : ((source.relativeTo pages).parent?.getD ⟨""⟩) =
      ⟨"/".intercalate names.dropLast⟩ := by
    rw [hsource, Path.relativeTo_foldl_child hpages hnames, Path.parent?_intercalate hnames]
  simp only [outputPath, hrelative] at h
  split at h
  · next hstem =>
    cases h
    exact .inl ⟨stem?_of_getD hstem (by decide), rfl⟩
  · obtain ⟨name, hname, h⟩ := bind_eq_ok h
    cases h
    exact .inr ⟨_, _, name, hname, notMem_fillName hname (Path.notMem_stem source), rfl⟩

/-- A name leads on, stays, or leads up. -/
theorem lead_cases (l : Location) (name : String) :
    Path.lead l name = l ++ [name] ∨ Path.lead l name = l ∨ Path.lead l name = l.dropLast := by
  rw [Path.lead]
  split
  · exact .inr (.inl rfl)
  · split
    · exact .inr (.inr rfl)
    · exact .inl rfl

/-- **Where a document lies**: as `index.html` in a directory at or below the output, or directly
above it. -/
theorem place_outputPath (h : outputPath pages output source route? = .ok p)
    (hpages : pages.text ≠ "") (hnames : ∀ name ∈ names, IsFileName name)
    (hsource : source = names.foldl Path.child pages) :
    ∃ l, p.place here = l ++ ["index.html"] ∧
      (output.place here <+: l ∨ l = (output.place here).dropLast) := by
  have hdir := place_mirrored here output hnames
  obtain ⟨-, rfl⟩ | ⟨index, params, name, -, hplain, rfl⟩ :=
    outputPath_eq_ok h hpages hnames hsource
  · rw [place_index, hdir]
    exact ⟨_, rfl, .inl (List.prefix_append _ _)⟩
  · rw [place_index, Path.place_child here _ hplain, hdir]
    refine ⟨_, rfl, ?_⟩
    obtain heq | heq | heq := lead_cases (output.place here ++ names.dropLast) name
    · rw [heq, List.append_assoc]
      exact .inl (List.prefix_append _ _)
    · rw [heq]
      exact .inl (List.prefix_append _ _)
    · rw [heq]
      rcases List.eq_nil_or_concat names.dropLast with hnil | ⟨dirs, last, hconcat⟩
      · rw [hnil, List.append_nil]
        exact .inr rfl
      · rw [hconcat, List.concat_eq_append, ← List.append_assoc, List.dropLast_concat]
        exact .inl (List.prefix_append _ _)

end Page

namespace Site

theorem exists_outputPath {d : Disk} {settings : BuildSettings} {source : Path}
    {jobs : List PageJob} {job : PageJob} (h : planPage d settings source = .ok jobs)
    (hjob : job ∈ jobs) : job.source = source ∧
    ∃ route?, Page.outputPath settings.pages settings.output source route? = .ok job.output := by
  rw [planPage] at h
  obtain ⟨page, -, h⟩ := bind_eq_ok h
  split at h
  · split at h
    · cases h
    · obtain ⟨⟨route, index⟩, -, hone⟩ := exists_of_mem_right (mapM_eq_ok h) hjob
      obtain ⟨output, houtput, hone⟩ := bind_eq_ok hone
      cases hone
      exact ⟨rfl, _, houtput⟩
  · obtain ⟨output, houtput, h⟩ := bind_eq_ok h
    cases h
    rw [List.mem_singleton] at hjob
    rw [hjob]
    exact ⟨rfl, _, houtput⟩

/-- A planned document is that of a page with names below the directory of pages. -/
theorem exists_of_mem_plan {d : Disk} {settings : BuildSettings} {jobs : List PageJob}
    {job : PageJob} {runtime : Runtime} (h : plan d settings runtime = .ok jobs)
    (hjob : job ∈ jobs) :
    ∃ route?, Page.outputPath settings.pages settings.output job.source route? = .ok job.output ∧
      settings.pages.text ≠ "" ∧ ∃ names : List String, (∀ name ∈ names, IsFileName name) ∧
        job.source = names.foldl Path.child settings.pages := by
  rw [plan] at h
  obtain ⟨planned, hplanned, h⟩ := bind_eq_ok h
  obtain ⟨-, -, h⟩ := bind_eq_ok h
  cases h
  obtain ⟨ofPage, hofPage, hjob⟩ := List.mem_flatten.1 hjob
  obtain ⟨source, hsource, hone⟩ := exists_of_mem_right (mapM_eq_ok (Schedule.collect_eq_ok.1 hplanned)) hofPage
  obtain ⟨rfl, route?, houtput⟩ := exists_outputPath hone hjob
  obtain ⟨hpages, names, hnames, heq⟩ := Disk.mem_filesUnder (List.mem_of_mem_filter hsource)
  exact ⟨route?, houtput, hpages, names, hnames, heq⟩

/-- Its place is below the output directory or directly above it. -/
theorem place_of_mem_plan {d : Disk} {settings : BuildSettings} {jobs : List PageJob} {job : PageJob}
    {runtime : Runtime} (h : plan d settings runtime = .ok jobs) (hjob : job ∈ jobs)
    (here : Location) :
    ∃ l, job.output.place here = l ++ ["index.html"] ∧
      (settings.output.place here <+: l ∨ l = (settings.output.place here).dropLast) := by
  obtain ⟨route?, houtput, hpages, names, hnames, heq⟩ := exists_of_mem_plan h hjob
  exact Page.place_outputPath houtput hpages hnames heq

/-- What is rendered is the documents of the planned jobs, in their order. -/
theorem renderAll_eq_ok {d : Disk} {settings : BuildSettings} {reloadPort? : Option Nat}
    {runtime : Runtime} {rendered : Rendered}
    (h : renderAll d settings reloadPort? runtime = .ok rendered) :
    ∃ jobs, prepare d settings reloadPort? runtime = .ok rendered.site ∧
      plan d settings runtime = .ok jobs ∧ List.Forall₂ (fun job document => document.1 = job.output ∧
        rendered.site.render job = .ok document.2) jobs rendered.documents := by
  rw [renderAll] at h
  obtain ⟨site, hsite, h⟩ := bind_eq_ok h
  obtain ⟨jobs, hjobs, h⟩ := bind_eq_ok h
  obtain ⟨documents, hdocuments, h⟩ := bind_eq_ok h
  cases h
  have hall := mapM_eq_ok (Schedule.collect_eq_ok.1 hdocuments)
  refine ⟨jobs, hsite, hjobs, hall.imp fun job document hone => ?_⟩
  obtain ⟨text, htext, hone⟩ := bind_eq_ok hone
  cases hone
  exact ⟨rfl, htext⟩

end Site

end StaticSite
