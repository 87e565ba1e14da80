import StaticSite.Proofs.CanonicalPaths

/-!
# New files in a directory

What follows from an operation on files that succeeds is told elsewhere; here is what makes one
succeed. A file can be put into a directory if no directory has its name there, and a directory can be
made where no file stands. Both change one entry and nothing else (`Sets`). A build puts its files
into one directory, so what has to be known of the disk is that this directory can hold them
(`CanHold`), and each file that is put there keeps it so (`CanHold.putFile`).
-/

namespace StaticSite

variable {d d₁ d₂ : Disk} {l : Location} {p : Path} {name dir : String} {content : ByteArray}

namespace Disk

/-- One disk is another one with an entry set, and everything else as it was. -/
structure Sets (d : Disk) (l : Location) (entry : Entry) (d' : Disk) : Prop where
  /-- relative paths still start in the same directory -/
  here_eq : d'.here = d.here
  /-- what stands where -/
  get? : ∀ k, d'.tree.get? k = if k = l then some entry else d.tree.get? k

theorem Sets.self {entry : Entry} (h : d.Sets l entry d₁) : d₁.tree.get? l = some entry := by
  rw [h.get?, if_pos rfl]

theorem Sets.other {entry : Entry} (h : d.Sets l entry d₁) {k : Location} (hk : k ≠ l) :
    d₁.tree.get? k = d.tree.get? k := by
  rw [h.get?, if_neg hk]

theorem sets_of_put? {t : FileTree} {entry : Entry} (h : d.tree.put? l name entry = some t) :
    d.Sets (l ++ [name]) entry (d.withTree t) :=
  ⟨rfl, FileTree.get?_put? h⟩

/-- A file can be put into a directory in which no directory has its name. -/
theorem write_child (hl : d.locate? p = some l) (hdir : d.tree.isDirectory l = true)
    (hname : IsFileName name) (hfree : d.tree.get? (l ++ [name]) ≠ some .directory)
    (content : ByteArray) :
    ∃ d', d.write (p.child name) content = (d', true) ∧
      d.Sets (l ++ [name]) (.file content) d' := by
  obtain ⟨t, ht⟩ := FileTree.exists_put? hdir hname hfree (.file content)
  refine ⟨d.withTree t, ?_, sets_of_put? ht⟩
  simp only [write, locate?_child hl hdir hname, List.getLast?_concat, List.dropLast_concat, ht]

/-- Directories that are there are passed. -/
theorem foldl_makeStep_of_foldlM {t : FileTree} {segments : List String} {s : Location}
    (h : segments.foldlM (follow? t) s = some l) (hdir : t.isDirectory l = true) :
    segments.foldl makeStep (t, some s) = (t, some l) := by
  induction segments generalizing s with
  | nil =>
    cases h
    rfl
  | cons segment segments ih =>
    rw [List.foldlM_cons, Option.bind_eq_bind, Option.bind_eq_some_iff] at h
    obtain ⟨next, hnext, h⟩ := h
    -- the next stretch starts in a directory, and so does the end
    have hget : t.get? next = some .directory := by
      rcases segments with _ | ⟨segment', segments⟩
      · cases h
        exact of_decide_eq_true hdir
      · rw [List.foldlM_cons, Option.bind_eq_bind, Option.bind_eq_some_iff] at h
        obtain ⟨_, hfollow, -⟩ := h
        exact of_decide_eq_true (follow?_eq_some hfollow).1
    have hstep : makeStep (t, some s) segment = (t, some next) := by
      simp only [makeStep, hnext, hget]
    rw [List.foldl_cons, hstep]
    exact ih h

/-- A directory can be made in another one in which no file has its name. -/
theorem makeDirectories_child (hl : d.locate? p = some l) (hdir : d.tree.isDirectory l = true)
    (hname : IsFileName name) (hfree : d.tree.content? (l ++ [name]) = none) :
    ∃ d', d.makeDirectories (p.child name) = (d', true) ∧ d.Sets (l ++ [name]) .directory d' := by
  have htext : (p.child name).text ≠ "" :=
    Path.text_join_ne (Path.isAbsolute_of_plain hname.plain.1) (text_ne_of_locate? hl)
  have hleads := locate?_child hl hdir hname
  rw [locate?, if_neg htext] at hleads
  rw [makeDirectories, if_neg htext]
  rcases hget : d.tree.get? (l ++ [name]) with _ | content | _
  · -- all but the last stretch is passed
    have hfollow : follow? d.tree l name = some (l ++ [name]) := by
      have hidle := Path.isIdle_of_isFileName hname
      simp [follow?, hdir, hidle, hname, hname.noDots.2]
    have hnone : d.tree.get? (l ++ [name]) ≠ some .directory := by
      rw [hget]
      exact (Option.some_ne_none _).symm
    obtain ⟨t, ht⟩ := FileTree.exists_put? hdir hname hnone .directory
    rw [Path.segments_child p hname.plain.1, List.foldlM_append, Option.bind_eq_bind,
      Option.bind_eq_some_iff] at hleads
    obtain ⟨l', hl', hlast⟩ := hleads
    obtain rfl : l' = l := by
      rw [List.foldlM_cons, Option.bind_eq_bind, Option.bind_eq_some_iff] at hlast
      obtain ⟨next, hnext, hlast⟩ := hlast
      cases hlast
      have hlead := (follow?_eq_some hnext).2
      rw [Path.lead_of_isFileName hname] at hlead
      exact (List.append_inj' hlead rfl).1.symm
    refine ⟨d.withTree t, ?_, sets_of_put? ht⟩
    rw [Path.segments_child p hname.plain.1, List.foldl_append, foldl_makeStep_of_foldlM hl' hdir]
    simp [makeStep, hfollow, hget, ht]
  · rw [FileTree.content?, hget] at hfree
    cases hfree
  · refine ⟨d, ?_, rfl, fun k => ?_⟩
    · rw [foldl_makeStep_of_foldlM hleads (decide_eq_true hget)]
      rfl
    · split
      · next heq => rw [heq, hget]
      · rfl

end Disk

/-- Nothing stands below a location where nothing stands. -/
theorem FileTree.get?_below {t : FileTree} (h : t.get? l = none) (names : Location) :
    t.get? (l ++ names) = none := by
  by_contra hget
  rcases names with _ | ⟨name, names⟩
  · rw [List.append_nil] at hget
    exact hget h
  · have hdir := (get?_append_ne_none hget).2 (List.cons_ne_nil _ _)
    exact get?_ne_none_of_isDirectory hdir h

/-! ## A directory of new files -/

/-- Files with some names can be put into a directory, which may have to be made. -/
structure CanHold (d : Disk) (l : Location) (dir : String) (names : List String) : Prop where
  /-- the directory above it is there -/
  above : d.tree.isDirectory l = true
  /-- the directory can be made -/
  noFile : d.tree.content? (l ++ [dir]) = none
  /-- no file would stand in place of a directory -/
  free : ∀ name ∈ names, d.tree.get? (l ++ [dir] ++ [name]) ≠ some .directory

variable {names : List String}

/-- A directory that is not there yet can hold any files. -/
theorem CanHold.of_none (habove : d.tree.isDirectory l = true)
    (h : d.tree.get? (l ++ [dir]) = none) : CanHold d l dir names := by
  refine ⟨habove, ?_, fun name _ => ?_⟩
  · rw [FileTree.content?, h]
  · rw [FileTree.get?_below h [name]]
    exact (Option.some_ne_none _).symm

/-- **Putting a file into a directory that can hold it** succeeds. The directory can still hold all
the others, and these are what they were. -/
theorem CanHold.putFile (h : CanHold d l dir names) (hdir : IsFileName dir)
    (hname : IsFileName name) (hmem : name ∈ names) {write : Disk → Disk × Bool} {reported : Path}
    (hwrite : ∀ d₁ : Disk, (∀ k, d₁.tree.content? k = d.tree.content? k) →
      write d₁ = d₁.write (Disk.pathOf (l ++ [dir] ++ [name])) content) :
    ∃ d', putFile d (Disk.pathOf (l ++ [dir] ++ [name])) write reported = (d', .ok ()) ∧
      CanHold d' l dir names ∧
      ∀ k, d'.tree.content? k =
        if k = l ++ [dir] ++ [name] then some content else d.tree.content? k := by
  have habove := h.above
  have hl := isFileName_of_isDirectory habove
  have hout := isFileName_concat hl hdir
  have hfile := isFileName_concat hout hname
  -- the directory is made
  obtain ⟨d₁, hmade, hset₁⟩ := Disk.makeDirectories_child (d := d)
    (Disk.locate?_pathOf (FileTree.get?_ne_none_of_isDirectory habove)) habove hdir h.noFile
  rw [Disk.pathOf_child hl hdir] at hmade
  have hmadeDir : d₁.tree.isDirectory (l ++ [dir]) = true := decide_eq_true hset₁.self
  have hfree₁ : ∀ other ∈ names, d₁.tree.get? (l ++ [dir] ++ [other]) ≠ some .directory := by
    intro other hother
    rw [hset₁.other (by simp)]
    exact h.free other hother
  have hcontent₁ : ∀ k, d₁.tree.content? k = d.tree.content? k := by
    intro k
    by_cases hk : k = l ++ [dir]
    · rw [hk, h.noFile, FileTree.content?, hset₁.self]
    · rw [FileTree.content?, hset₁.other hk, FileTree.content?]
  -- and then the file is put into it
  obtain ⟨d₂, hput, hset₂⟩ := Disk.write_child (d := d₁)
    (Disk.locate?_pathOf (FileTree.get?_ne_none_of_isDirectory hmadeDir)) hmadeDir hname
    (hfree₁ name hmem) content
  rw [Disk.pathOf_child hout hname] at hput
  refine ⟨d₂, ?_, ⟨?_, ?_, fun other hother => ?_⟩, fun k => ?_⟩
  · simp only [StaticSite.putFile, makeParent, Path.parent?_pathOf hfile, hmade,
      (hwrite d₁ hcontent₁).trans hput]
  · rw [FileTree.isDirectory, hset₂.other (by simp), hset₁.other (by simp)]
    exact habove
  · rw [FileTree.content?, hset₂.other (by simp), hset₁.self]
  · rw [hset₂.get?]
    split
    · exact fun heq => Entry.noConfusion (Option.some.inj heq)
    · exact hfree₁ other hother
  · split
    · next hk => rw [hk, FileTree.content?_eq_some.2 hset₂.self]
    · next hk => rw [FileTree.content?, hset₂.other hk, ← hcontent₁, FileTree.content?]

theorem CanHold.writePage (h : CanHold d l dir names) (hdir : IsFileName dir)
    (hname : IsFileName name) (hmem : name ∈ names) (document : String) :
    ∃ d', writePage d (Disk.pathOf (l ++ [dir] ++ [name])) document = (d', .ok ()) ∧
      CanHold d' l dir names ∧
      ∀ k, d'.tree.content? k =
        if k = l ++ [dir] ++ [name] then some document.toUTF8 else d.tree.content? k :=
  h.putFile hdir hname hmem fun _ _ => rfl

/-- A single page is written. -/
theorem writePages_single {output : Path} {document : String}
    (h : writePage d output document = (d₁, .ok ())) (schedule : Schedule (Path × String)) :
    writePages d [(output, document)] schedule = (d₁, .ok ()) := by
  rw [writePages, Schedule.forEach, Schedule.take_singleton, forEach]
  dsimp only
  rw [h]
  rfl

/-- A directory could hold the files that it has in the end, if files were only put. -/
theorem CanHold.of_filled {files : List (Location × ByteArray)}
    (habove : d.tree.isDirectory l = true) (hfilled : d.Filled files d₁) (hne : names ≠ [])
    (hput : ∀ name ∈ names, d₁.tree.content? (l ++ [dir] ++ [name]) ≠ none) :
    CanHold d l dir names := by
  obtain ⟨first, hfirst⟩ := List.exists_mem_of_ne_nil names hne
  refine ⟨habove, ?_, fun name hname hget => ?_⟩
  · obtain ⟨content, hcontent⟩ := Option.ne_none_iff_exists'.1 (hput first hfirst)
    have hdir := (FileTree.get?_concat_ne_none (FileTree.get?_ne_none_of_content? hcontent)).2
    have hnone : d₁.tree.content? (l ++ [dir]) = none := by
      rw [FileTree.content?, of_decide_eq_true hdir]
    rw [hfilled.fills.content?] at hnone
    exact (Option.or_eq_none_iff.1 hnone).2
  · have hdir := hfilled.fills.isDirectory (decide_eq_true hget)
    refine hput name hname ?_
    rw [FileTree.content?, of_decide_eq_true hdir]

end StaticSite
