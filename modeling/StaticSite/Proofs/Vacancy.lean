import StaticSite.Proofs.AnyOrder
import StaticSite.Proofs.Untouched

/-!
# A directory that may be missing

An output that is to be emptied is taken away, or it stays with nothing in it, and where there was none
there is none. For what a build puts into it afterwards this makes no difference. A step on the way to
a file either leads elsewhere and does the same with and without the directory, or it comes to the
place of the directory and finds it or makes it, and then the two disks are one (`makeStep_vacant`). So
runs of any length end alike (`makeDirectories_alike`, `putFile_alike`, `forEach_alike`). All that is
written in a delivery has its way through the output (`passes_of_mem_plan`, `passes_of_mem_filesUnder`),
so that nothing can be put in its place.
-/

namespace StaticSite

/-! ## Trees -/

namespace FileTree

/-- Two trees of which only the second one has something at a location, which is a directory. -/
structure Vacant (l : Location) (t u : FileTree) : Prop where
  /-- nothing stands there in the first tree -/
  get?_eq_none : t.get? l = none
  /-- a directory stands there in the second one -/
  directory : u.get? l = some .directory
  /-- elsewhere they are the same -/
  same : ∀ k, k ≠ l → u.get? k = t.get? k

variable {t u : FileTree} {l k : Location}

theorem Vacant.ne (h : Vacant l t u) (hk : t.get? k ≠ none) : k ≠ l :=
  fun heq => hk (heq ▸ h.get?_eq_none)

theorem Vacant.isDirectory (h : Vacant l t u) (hk : t.isDirectory k = true) :
    u.isDirectory k = true := by
  rw [FileTree.isDirectory, h.same k (h.ne (get?_ne_none_of_isDirectory hk))]
  exact hk

/-- So it is with what is left when a directory is taken away and what is left when it is emptied. -/
theorem vacant_emptied (hdir : u.isDirectory l = true) (hl : l ≠ []) :
    Vacant l (u.prune l) (u.emptied l) := by
  refine ⟨?_, ?_, fun k hk => ?_⟩
  · rw [get?_prune, if_pos ⟨List.prefix_rfl, hl⟩]
  · rw [get?_emptied, if_neg fun hbelow => hbelow.2 rfl]
    exact of_decide_eq_true hdir
  · rw [get?_prune, get?_emptied]
    by_cases hbelow : l <+: k
    · rw [if_pos ⟨hbelow, hk⟩, if_pos ⟨hbelow, Below.ne_nil ⟨hbelow, hk⟩⟩]
    · rw [if_neg fun h => hbelow h.1, if_neg fun h => hbelow h.1]

/-- Nothing lies below a location where nothing stands. -/
theorem prune_eq_self (h : t.get? l = none) : t.prune l = t := by
  refine FileTree.ext fun k => ?_
  rw [get?_prune]
  split
  · next hk =>
    obtain ⟨⟨rest, rfl⟩, -⟩ := hk
    by_contra hsome
    obtain ⟨-, hdir⟩ := get?_append_ne_none (Ne.symm hsome)
    by_cases hrest : rest = []
    · rw [hrest, List.append_nil, h] at hsome
      exact hsome rfl
    · exact get?_ne_none_of_isDirectory (hdir hrest) h
  · rfl

/-- The first tree is the second one without what stands at the location. -/
theorem Vacant.prune_eq (h : Vacant l t u) : u.prune l = t := by
  rw [← prune_eq_self h.get?_eq_none]
  refine FileTree.ext fun k => ?_
  rw [get?_prune, get?_prune]
  split
  · rfl
  · next hk =>
    by_cases hl : k = l
    · have hnil : k = [] := by
        by_contra hnil
        exact hk ⟨hl ▸ List.prefix_rfl, hnil⟩
      rw [hnil]
      rfl
    · exact h.same k hl

/-- With a directory at the location the first tree is the second one. -/
theorem Vacant.eq_of_put? (h : Vacant l t u) {dir : Location} {name : String} {v : FileTree}
    (hput : t.put? dir name .directory = some v) (hl : dir ++ [name] = l) : v = u := by
  refine FileTree.ext fun k => ?_
  rw [get?_put? hput, hl]
  split
  · next hk => rw [hk, h.directory]
  · next hk => exact (h.same k hk).symm

/-- What is put elsewhere is put on both. -/
theorem Vacant.put? (h : Vacant l t u) {dir : Location} {name : String} {entry : Entry}
    {v : FileTree} (hput : t.put? dir name entry = some v) (hl : dir ++ [name] ≠ l) :
    ∃ w, u.put? dir name entry = some w ∧ Vacant l v w := by
  have hold := hput
  rw [FileTree.put?] at hold
  split at hold
  · next hfree =>
    obtain ⟨hdir, hname, hnone⟩ := hfree
    obtain ⟨w, hw⟩ := exists_put? (h.isDirectory hdir) hname (by rwa [h.same _ hl]) entry
    refine ⟨w, hw, ?_, ?_, fun k hk => ?_⟩
    · rw [get?_put? hput, if_neg (Ne.symm hl), h.get?_eq_none]
    · rw [get?_put? hw, if_neg (Ne.symm hl), h.directory]
    · rw [get?_put? hw, get?_put? hput, h.same k hk]
  · cases hold

end FileTree

open FileTree

namespace Disk

variable {t u : FileTree} {l k : Location}

/-- One step from a directory, which makes the missing one if it leads there. -/
theorem makeStep_vacant (h : Vacant l t u) (hk : t.isDirectory k = true) (segment : String) :
    ∃ t' u' next?, makeStep (t, some k) segment = (t', next?) ∧
      makeStep (u, some k) segment = (u', next?) ∧ (t' = u' ∨ Vacant l t' u') := by
  have hfollow : follow? u k segment = follow? t k segment := by
    rw [follow?, follow?, hk, h.isDirectory hk]
  rcases hnext : follow? t k segment with _ | next
  · exact ⟨t, u, none, by simp [makeStep, hnext], by simp [makeStep, hfollow, hnext], .inr h⟩
  · -- where nothing stands the step is a name
    have hname (hnone : t.get? next = none) : IsFileName segment ∧ next = k ++ [segment] := by
      obtain hback | hname := follow?_cases hnext
      · have hdir := isDirectory_above hk hback
        exact absurd hnone (get?_ne_none_of_isDirectory hdir)
      · exact hname
    have hput (hnone : t.get? next = none) : ∃ v, t.put? k segment .directory = some v := by
      obtain ⟨hfile, heq⟩ := hname hnone
      exact exists_put? hk hfile (by simp [← heq, hnone]) .directory
    by_cases hl : next = l
    · have hnone : t.get? next = none := hl ▸ h.get?_eq_none
      have hdirectory : u.get? next = some .directory := hl ▸ h.directory
      obtain ⟨v, hv⟩ := hput hnone
      refine ⟨v, u, some next, by simp [makeStep, hnext, hnone, hv],
        by simp [makeStep, hfollow, hnext, hdirectory], .inl (h.eq_of_put? hv ?_)⟩
      rw [← (hname hnone).2, hl]
    · have hsame := h.same next hl
      rcases hget : t.get? next with _ | content | _
      · obtain ⟨v, hv⟩ := hput hget
        obtain ⟨w, hw, hvacant⟩ := h.put? hv fun heq => hl ((hname hget).2.trans heq)
        exact ⟨v, w, some next, by simp [makeStep, hnext, hget, hv],
          by simp [makeStep, hfollow, hnext, hsame, hget, hw], .inr hvacant⟩
      · exact ⟨t, u, none, by simp [makeStep, hnext, hget],
          by simp [makeStep, hfollow, hnext, hsame, hget], .inr h⟩
      · exact ⟨t, u, some next, by simp [makeStep, hnext, hget],
          by simp [makeStep, hfollow, hnext, hsame, hget], .inr h⟩

theorem foldl_makeStep_vacant (h : Vacant l t u) (hk : t.isDirectory k = true)
    (segments : List String) :
    ∃ t' u' next?, segments.foldl makeStep (t, some k) = (t', next?) ∧
      segments.foldl makeStep (u, some k) = (u', next?) ∧ (t' = u' ∨ Vacant l t' u') := by
  induction segments generalizing t u k with
  | nil => exact ⟨t, u, some k, rfl, rfl, .inr h⟩
  | cons segment segments ih =>
    obtain ⟨t₁, u₁, next?, ht, hu, hone⟩ := makeStep_vacant h hk segment
    rw [List.foldl_cons, List.foldl_cons, ht, hu]
    obtain rfl | hvacant := hone
    · exact ⟨_, _, _, rfl, rfl, .inl rfl⟩
    · rcases next? with _ | next
      · rw [foldl_makeStep_none, foldl_makeStep_none]
        exact ⟨_, _, _, rfl, rfl, .inr hvacant⟩
      · exact ih hvacant (isDirectory_of_makeStep ht).1

end Disk

/-! ## Disks -/

/-- Two disks of which only the second one may have something at a location. It is a directory then, and
there is nothing else that they differ in. -/
structure Alike (here l : Location) (d e : Disk) : Prop where
  /-- relative paths start in the same directory -/
  here_eq : d.here = here ∧ e.here = here
  /-- the disks are the same, or only the second one has the directory -/
  same : d = e ∨ d.tree.isDirectory here = true ∧ Vacant l d.tree e.tree

/-- Two runs end alike, with the same answer. -/
structure EndAlike {α : Type} (here l : Location) (r s : Disk × α) : Prop where
  /-- the answers are the same -/
  answer : r.2 = s.2
  /-- the disks are alike -/
  disk : Alike here l r.1 s.1

section

variable {d d' e : Disk} {here l k : Location} {p reported : Path} {init way : List String}
  {name : String}

theorem Alike.refl (hhere : d.here = here) : Alike here l d d := ⟨⟨hhere, hhere⟩, .inl rfl⟩

theorem EndAlike.exists_eq {α : Type} {r s : Disk × α} (h : EndAlike here l r s) :
    ∃ d e answer, r = (d, answer) ∧ s = (e, answer) ∧ Alike here l d e :=
  ⟨r.1, s.1, r.2, rfl, by rw [h.answer], h.disk⟩

theorem Alike.get?_eq (h : Alike here l d e) (hk : k ≠ l) : d.tree.get? k = e.tree.get? k := by
  obtain rfl | ⟨-, hvacant⟩ := h.same
  · rfl
  · exact (hvacant.same k hk).symm

theorem isDirectory_start (h : d.tree.isDirectory d.here = true) (p : Path) :
    d.tree.isDirectory (d.start p) = true := by
  rw [Disk.start]
  split
  · rfl
  · exact h

theorem makeDirectories_alike (h : Alike here l d e) (p : Path) :
    EndAlike here l (d.makeDirectories p) (e.makeDirectories p) := by
  obtain rfl | ⟨hbegins, hvacant⟩ := h.same
  · exact ⟨rfl, .refl ((Disk.makeDirectories_filled d p).here_eq.trans h.here_eq.1)⟩
  · obtain ⟨rfl, hhere⟩ := h.here_eq
    rw [Disk.makeDirectories, Disk.makeDirectories]
    split
    · exact ⟨rfl, h⟩
    · obtain ⟨t', u', next?, ht, hu, hone⟩ := Disk.foldl_makeStep_vacant
        hvacant (isDirectory_start hbegins p) p.segments
      have hstart : e.start p = d.start p := by rw [Disk.start, Disk.start, hhere]
      have hfills := Disk.foldl_makeStep_fills p.segments d.tree (some (d.start p))
      rw [ht] at hfills
      rw [hstart, ht, hu]
      refine ⟨rfl, ⟨rfl, hhere⟩, ?_⟩
      obtain rfl | hvacant' := hone
      · exact .inl (congrArg (Disk.mk t') hhere.symm)
      · exact .inr ⟨hfills.isDirectory hbegins, hvacant'⟩

theorem makeParent_alike (h : Alike here l d e) (p : Path) :
    EndAlike here l (makeParent d p) (makeParent e p) := by
  rw [makeParent, makeParent]
  split
  · exact ⟨rfl, h⟩
  · next dir _ =>
    obtain ⟨d₁, e₁, made, hd, he, hdisk⟩ := (makeDirectories_alike h dir).exists_eq
    rw [hd, he]
    rcases made with _ | _
    · exact ⟨rfl, hdisk⟩
    · exact ⟨rfl, hdisk⟩

/-- Behind the directory of a file, all of the way to the file leads through directories. -/
theorem isDirectory_of_makeParent (h : makeParent d p = (d', .ok ()))
    (hbegins : d.tree.isDirectory d.here = true) (hsegments : p.segments = init ++ [name])
    (hname : Path.isIdle name = false) (hway : way <+: init) :
    d'.tree.isDirectory (p.placeOf d.here way) = true := by
  obtain ⟨dir, hdir, -, hways⟩ := Path.exists_way_of_segments hsegments hname
  obtain ⟨way', hway', hplace⟩ := hways way hway
  rcases hmade : d.makeDirectories dir with ⟨d₁, made⟩
  have hwithin : d.tree.Within d₁.tree := by
    have hfilled := Disk.makeDirectories_filled d dir
    rw [hmade] at hfilled
    exact hfilled.fills.within
  rcases made with _ | _
  · simp only [makeParent, hdir, hmade] at h
    cases h
  · obtain ⟨d₂, hmade', -, hdirectories⟩ := Disk.makeDirectories_within hmade rfl
      (fun _ _ hkind => hkind) hwithin (isDirectory_start hbegins dir)
    obtain rfl : d₁ = d₂ := congrArg Prod.fst (hmade.symm.trans hmade')
    simp only [makeParent, hdir, hmade] at h
    cases h
    rw [hplace]
    exact hdirectories way' hway'

/-- A path on which nothing can be put at a location by `write`, unless the way leads through it: it
does, or the path does not end in a name, which no file can be written to. -/
inductive Passes (here l : Location) (p : Path) (write : Disk → Disk × Bool) : Prop where
  /-- the way leads through the location -/
  | through {init way : List String} {name : String} (hsegments : p.segments = init ++ [name])
      (hname : Path.isIdle name = false) (hway : way <+: init) (hplace : p.placeOf here way = l) :
      Passes here l p write
  /-- nothing is written -/
  | fails (hwrite : ∀ d, write d = (d, false)) : Passes here l p write

theorem putFile_alike (h : Alike here l d e) {write : Disk → Disk × Bool}
    (hpasses : Passes here l p write) (hfills : ∀ d, FilledIn d (fun _ => True) (write d).1) :
    EndAlike here l (putFile d p write reported) (putFile e p write reported) := by
  obtain rfl | ⟨hbegins, hvacant⟩ := h.same
  · have hfilled : FilledIn d (fun _ => True) (putFile d p write reported).1 :=
      putFile_filledIn h.here_eq.1 fun d _ => hfills d
    exact ⟨rfl, .refl (hfilled.here_eq.trans h.here_eq.1)⟩
  · obtain ⟨d₁, e₁, made, hd, he, hdisk⟩ := (makeParent_alike h p).exists_eq
    rw [putFile, putFile, hd, he]
    rcases made with error | _
    · exact ⟨rfl, hdisk⟩
    · dsimp only
      obtain hsame | ⟨-, hvacant'⟩ := hdisk.same
      · obtain rfl : d₁ = e₁ := hsame
        have hhere := (hfills d₁).here_eq.trans hdisk.here_eq.1
        rcases hwritten : write d₁ with ⟨d₂, _ | _⟩
        · rw [hwritten] at hhere
          exact ⟨rfl, .refl hhere⟩
        · rw [hwritten] at hhere
          exact ⟨rfl, .refl hhere⟩
      · cases hpasses with
        | fails hwrite =>
          rw [hwrite, hwrite]
          exact ⟨rfl, hdisk⟩
        | through hsegments hname hway hplace =>
          -- the directory has been made
          obtain rfl := h.here_eq.1
          have hdir := isDirectory_of_makeParent hd hbegins hsegments hname hway
          rw [hplace] at hdir
          exact absurd hvacant'.get?_eq_none (get?_ne_none_of_isDirectory hdir)

theorem forEach_alike {α : Type} {f : Disk → α → Disk × Except BuildError Unit} {late : Nat}
    {xs : List α} (h : Alike here l d e)
    (hf : ∀ x ∈ xs, ∀ d e, Alike here l d e → EndAlike here l (f d x) (f e x)) :
    EndAlike here l (forEach f late d xs) (forEach f late e xs) := by
  -- items that are done whatever becomes of them
  have hall : ∀ ys : List α, (∀ y ∈ ys, y ∈ xs) → ∀ d e, Alike here l d e →
      Alike here l (ys.foldl (fun d x => (f d x).1) d) (ys.foldl (fun d x => (f d x).1) e) := by
    intro ys hys
    induction ys with
    | nil => exact fun _ _ h => h
    | cons y ys ih =>
      exact fun d e h => ih (fun z hz => hys z (List.mem_cons_of_mem _ hz)) _ _
        (hf y (hys y List.mem_cons_self) d e h).disk
  induction xs generalizing d e with
  | nil => exact ⟨rfl, h⟩
  | cons x xs ih =>
    obtain ⟨d₁, e₁, done, hd, he, hdisk⟩ := (hf x List.mem_cons_self d e h).exists_eq
    rw [forEach, forEach, hd, he]
    rcases done with error | _
    · exact ⟨rfl, hall _ (fun y hy => List.mem_cons_of_mem _ (List.mem_of_mem_take hy)) d₁ e₁ hdisk⟩
    · exact ih hdisk (fun y hy => hf y (List.mem_cons_of_mem _ hy))
        fun ys hys => hall ys fun y hy => List.mem_cons_of_mem _ (hys y hy)

end

/-! ## What is put into an output -/

section

variable {d e : Disk} {here l : Location} {output p q : Path} {init : List String} {name : String}

theorem Path.front_prefix_join (p : Path) (hq : q.isAbsolute = false) :
    p.front <+: (p.join q).front := by
  have hsegments := segments_join p hq
  obtain h | h := (p.join q).segments_eq
  · rw [← h, hsegments]
    exact List.prefix_append _ _
  · have hdrop := congrArg List.dropLast h
    rw [List.dropLast_concat, hsegments, List.dropLast_append_of_ne_nil q.segments_ne_nil] at hdrop
    rw [← hdrop]
    exact List.prefix_append _ _

/-- What is put behind the path of an output has its way through the output. -/
theorem passes_of_front {write : Disk → Disk × Bool}
    (habsolute : p.isAbsolute = output.isAbsolute) (hsegments : p.segments = init ++ [name])
    (hname : Path.isIdle name = false) (hway : output.front <+: init) :
    Passes here (output.place here) p write := by
  refine .through hsegments hname hway ?_
  rw [Path.place_eq_front, Path.placeOf, habsolute]

/-- A document behind the path of an output. -/
theorem passes_index {write : Disk → Disk × Bool} (habsolute : q.isAbsolute = output.isAbsolute)
    (hway : output.front <+: q.front) :
    Passes here (output.place here) (q.child "index.html") write := by
  have hindex := Page.isFileName_index
  refine passes_of_front ?_ (Path.segments_child q hindex.plain.1)
    (Path.isIdle_of_isFileName hindex) hway
  rw [Path.child, Path.isAbsolute_join q (Path.isAbsolute_of_plain hindex.plain.1), habsolute]

/-- Documents have their way through the output. -/
theorem passes_of_mem_plan {settings : BuildSettings} {runtime : Runtime} {jobs : List PageJob}
    {job : PageJob} {write : Disk → Disk × Bool} (hplan : Site.plan d settings runtime = .ok jobs)
    (hjob : job ∈ jobs) : Passes here (settings.output.place here) job.output write := by
  obtain ⟨route?, houtput, hpages, names, hnames, hsource⟩ := Site.exists_of_mem_plan hplan hjob
  have hrelative := Path.isAbsolute_intercalate (Page.isFileName_of_mem_dropLast hnames)
  have hmirrored := Path.isAbsolute_join settings.output hrelative
  have hfront := Path.front_prefix_join settings.output hrelative
  obtain ⟨-, heq⟩ | ⟨-, -, name, -, hplain, heq⟩ :=
    Page.outputPath_eq_ok houtput hpages hnames hsource
  · rw [heq]
    exact passes_index hmirrored hfront
  · have hname := Path.isAbsolute_of_plain hplain
    rw [heq]
    exact passes_index ((Path.isAbsolute_join _ hname).trans hmirrored)
      (hfront.trans (Path.front_prefix_join _ hname))

/-- Nothing can be written to a path that does not end in a name. -/
theorem write_of_isIdle (hsegments : p.segments = init ++ [name]) (hname : Path.isIdle name = true)
    (content : ByteArray) (d : Disk) : d.write p content = (d, false) := by
  obtain hfails | ⟨d', hwritten, -⟩ := d.write_cases p content
  · exact hfails
  · obtain ⟨init', name', -, hsegments', hfile, -⟩ := Disk.write_eq_true hwritten
    obtain ⟨-, hlast⟩ := List.append_inj' (hsegments.symm.trans hsegments') rfl
    rw [List.singleton_inj.1 hlast, Path.isIdle_of_isFileName hfile] at hname
    cases hname

/-- Copies have their way through the output, too. If the assets are a file, it is not copied. -/
theorem passes_of_mem_filesUnder {assets source : Path} (hsource : source ∈ d.filesUnder assets) :
    Passes here (output.place here) (output.join (source.relativeTo assets))
      fun d => d.copy source (output.join (source.relativeTo assets)) := by
  obtain ⟨htext, names, hnames, rfl⟩ := Disk.mem_filesUnder hsource
  have hrelative := Path.isAbsolute_intercalate hnames
  rw [Path.relativeTo_foldl_child htext hnames]
  have hsegments := Path.segments_join output hrelative
  obtain rfl | ⟨init, name, heq⟩ := List.eq_nil_or_concat names
  · have hempty : (output.join ⟨"/".intercalate []⟩).segments = output.front ++ [""] := hsegments
    refine .fails fun d => ?_
    rw [Disk.copy]
    split
    · rfl
    · split
      · exact write_of_isIdle hempty rfl _ d
      · exact write_of_isIdle hempty rfl _ d
  · rw [List.concat_eq_append] at heq
    subst heq
    rw [Path.segments_intercalate hnames (by simp), ← List.append_assoc] at hsegments
    exact passes_of_front (Path.isAbsolute_join output hrelative) hsegments
      (Path.isIdle_of_isFileName (hnames name (by simp))) (List.prefix_append _ _)

theorem writePages_alike (h : Alike here l d e) {documents : List (Path × String)}
    (hpasses : ∀ document ∈ documents, ∀ write, Passes here l document.1 write)
    (schedule : Schedule (Path × String)) :
    EndAlike here l (writePages d documents schedule) (writePages e documents schedule) := by
  refine forEach_alike h fun document hdocument d e h => ?_
  exact putFile_alike h (hpasses document (Schedule.mem_take.1 hdocument) _) fun d =>
    (write_filledIn rfl document.1 _).mono fun _ _ => trivial

theorem copyAssets_alike {assets : Path} (h : Alike here (output.place here) d e)
    (hfiles : d.filesUnder assets = e.filesUnder assets) (schedule : Schedule Path) :
    EndAlike here (output.place here) (copyAssets d assets output schedule)
      (copyAssets e assets output schedule) := by
  have hcopied : EndAlike here (output.place here)
      (schedule.forEach (fun d source => copyAsset d assets output source) d (d.filesUnder assets))
      (schedule.forEach (fun d source => copyAsset d assets output source) e (d.filesUnder assets)) := by
    refine forEach_alike h fun source hsource d₁ e₁ h₁ => ?_
    have hpasses : Passes here (output.place here) (output.join (source.relativeTo assets))
        fun d => d.copy source (output.join (source.relativeTo assets)) :=
      passes_of_mem_filesUnder (Schedule.mem_take.1 hsource)
    rw [copyAsset, copyAsset]
    exact putFile_alike h₁ hpasses fun d => (copy_filledIn rfl source _).mono fun _ _ => trivial
  obtain ⟨d₁, e₁, copied, hd, he, hdisk⟩ := hcopied.exists_eq
  rw [copyAssets, copyAssets, ← hfiles]
  simp only [hd, he]
  rcases copied with error | _
  · exact ⟨rfl, hdisk⟩
  · exact ⟨rfl, hdisk⟩

end

end StaticSite
