import StaticSite.Proofs.Delivery
import StaticSite.Proofs.Documents
import StaticSite.Proofs.Filling

/-!
# What a build leaves behind

A build that succeeds has written its documents and then copied its assets, all into one directory.
Nothing looks whether an asset is to lie where a document does, so a document stands at its place only
if no asset was copied there (`standing?`). Of documents with one place any may be the last one that is
written there. Assets are copied last and keep each other apart, so they are all there, if the path of
their directory still leads to it.
-/

namespace StaticSite

/-! ## Locations apart -/

/-- Two locations of which neither lies in the other one. -/
def Apart (l k : Location) : Prop := ¬ l <+: k ∧ ¬ k <+: l

instance (l k : Location) : Decidable (Apart l k) :=
  inferInstanceAs (Decidable (¬ l <+: k ∧ ¬ k <+: l))

theorem Apart.not_prefix_append {l k : Location} (h : Apart l k) (rest : Location) :
    ¬ l <+: k ++ rest := by
  intro hstart
  obtain hlk | hkl := List.prefix_or_prefix_of_prefix hstart (List.prefix_append k rest)
  · exact h.1 hlk
  · exact h.2 hkl

/-! ## Copying assets -/

/-- A list that holds exactly the pairs of a function is looked up like this function. -/
theorem lookup_eq_of_mem {files : List (Location × ByteArray)} {f : Location → Option ByteArray}
    (hmem : ∀ file ∈ files, f file.1 = some file.2)
    (hall : ∀ l content, f l = some content → ∃ file ∈ files, file.1 = l) (l : Location) :
    files.lookup l = f l := by
  rcases hlookup : files.lookup l with _ | content
  · rcases hf : f l with _ | content
    · rfl
    · obtain ⟨file, hfile, heq⟩ := hall l content hf
      exact absurd heq (lookup_eq_none.1 hlookup file hfile)
  · obtain ⟨before, behind, rfl, -⟩ := List.lookup_eq_some_iff.1 hlookup
    exact (hmem (l, content) (by simp)).symm

/-- A path with a slash at its end leads to directories only. -/
theorem Disk.isDirectory_of_locate?_join {d : Disk} {p : Path} {l : Location}
    (h : d.locate? (p.join ⟨""⟩) = some l) : d.tree.isDirectory l = true := by
  rw [locate?] at h
  split at h
  · cases h
  · rw [Path.segments_join p rfl, List.foldlM_append, Option.bind_eq_bind,
      Option.bind_eq_some_iff] at h
    obtain ⟨l', -, hlast⟩ := h
    have hfollow : follow? d.tree l' "" = some l := by
      simpa [Path.segments, Text.splitOn] using hlast
    obtain ⟨hdir, hlead⟩ := follow?_eq_some hfollow
    obtain rfl : l = l' := hlead
    exact hdir

/-- What is copied to a location: the file that has the same place below the assets. -/
def copied? (t : FileTree) (assets output l : Location) : Option ByteArray :=
  if output <+: l then t.content? (assets ++ l.drop output.length) else none

theorem copied?_append (t : FileTree) (assets output names : Location) :
    copied? t assets output (output ++ names) = t.content? (assets ++ names) := by
  rw [copied?, if_pos (List.prefix_append _ _), List.drop_left]

/-- The bytes of the file at a path, if there is one. -/
def bytesAt (d : Disk) (p : Path) : ByteArray := (d.read? p).getD ByteArray.empty

/-- The copies of files below the assets, the last one first. -/
def copies (d : Disk) (assets output : Path) (sources : List Path) : List (Location × ByteArray) :=
  (sources.map fun source =>
    ((output.join (source.relativeTo assets)).place d.here, bytesAt d source)).reverse

/-- A disk on which nothing was filled but what lies at or below a location. -/
def FilledBelow (d : Disk) (l : Location) (d' : Disk) : Prop :=
  ∃ files, d.Filled files d' ∧ ∀ file ∈ files, l <+: file.1

/-- The path to which a file below the assets is copied. -/
def copyPath (output : Path) (names : Location) : Path := output.join ⟨"/".intercalate names⟩

section copy

variable {d d₁ d₂ d' : Disk} {assets output p source : Path} {l a : Location} {names : Location}
  {content : ByteArray} {sources : List Path}

theorem FilledBelow.refl (d : Disk) (l : Location) : FilledBelow d l d :=
  ⟨[], .refl d, fun _ hfile => absurd hfile List.not_mem_nil⟩

theorem FilledBelow.filled {files : List (Location × ByteArray)} (h : FilledBelow d l d₁)
    (hfilled : d₁.Filled files d₂) (hfiles : ∀ file ∈ files, l <+: file.1) : FilledBelow d l d₂ := by
  obtain ⟨before, hbefore, hbelow⟩ := h
  refine ⟨_, hbefore.trans hfilled, fun file hfile => ?_⟩
  rcases List.mem_append.1 hfile with hfile | hfile
  · exact hfiles file hfile
  · exact hbelow file hfile

theorem place_copyPath (here : Location) (output : Path)
    (hcontent : d.tree.content? (a ++ names) = some content) :
    (copyPath output names).place here = output.place here ++ names :=
  Path.place_join_intercalate here output (FileTree.isFileName_of_content? hcontent)

/-- What stands below a directory of assets: files with names behind its path. -/
theorem Disk.mem_filesUnder_of_locate? (hl : d.locate? assets = some a) :
    source ∈ d.filesUnder assets ↔ ∃ names content, source = names.foldl Path.child assets ∧
      d.tree.content? (a ++ names) = some content ∧
      source.relativeTo assets = ⟨"/".intercalate names⟩ ∧ d.read? source = some content := by
  rw [filesUnder_eq hl, List.mem_map]
  constructor
  · rintro ⟨names, hnames, rfl⟩
    obtain ⟨content, hcontent⟩ := FileTree.mem_namesBelow.1 hnames
    refine ⟨names, content, rfl, hcontent, Path.relativeTo_foldl_child (text_ne_of_locate? hl)
      (FileTree.isFileName_of_content? hcontent), ?_⟩
    rw [read?_eq, locate?_foldl_child hl (FileTree.get?_ne_none_of_content? hcontent),
      Option.bind_some, hcontent]
  · rintro ⟨names, content, rfl, hcontent, -, -⟩
    exact ⟨names, FileTree.mem_namesBelow.2 ⟨content, hcontent⟩, rfl⟩

/-- One asset is put as it was, as long as nothing but the output has been filled. -/
theorem copyAsset_eq_putContent (hapart : Apart (output.place d.here) a)
    (hl : d.locate? assets = some a) (hsource : source ∈ d.filesUnder assets)
    (hbelow : FilledBelow d (output.place d.here) d₁) :
    copyAsset d₁ assets output source =
      putContent (output.join (source.relativeTo assets)) source (bytesAt d source) d₁ := by
  obtain ⟨files, hfilled, hout⟩ := hbelow
  obtain ⟨names, content, rfl, hcontent, hrelative, hread⟩ :=
    (Disk.mem_filesUnder_of_locate? hl).1 hsource
  have hleads : d.locate? (names.foldl Path.child assets) = some (a ++ names) :=
    Disk.locate?_foldl_child hl (FileTree.get?_ne_none_of_content? hcontent)
  have hnone : files.lookup (a ++ names) = none :=
    lookup_eq_none.2 fun file hfile heq =>
      hapart.not_prefix_append names (heq ▸ hout file hfile)
  rw [copyAsset, putContent, hrelative, ← copyPath, bytesAt, hread, Option.getD_some]
  refine putFile_congr fun d₃ hparent => ?_
  have hfilled₃ := hfilled.trans hparent
  have hleads₃ := hfilled₃.locate? hleads
  have hread₃ : d₃.read? (names.foldl Path.child assets) = some content := by
    rw [Disk.read?_eq, hleads₃, Option.bind_some, hfilled₃.fills.content?, List.nil_append, hnone,
      Option.none_or, hcontent]
  -- the copy lies at another place than the asset
  have hne : d₃.locate? (names.foldl Path.child assets) ≠ d₃.locate? (copyPath output names) := by
    rw [hleads₃]
    intro heq
    have hplace : a ++ names = (copyPath output names).place d₃.here :=
      Disk.locate?_eq_some heq.symm
    rw [place_copyPath d₃.here output hcontent, hfilled₃.here_eq] at hplace
    exact hapart.not_prefix_append names ⟨names, hplace.symm⟩
  rw [Disk.copy, hread₃]
  exact if_neg hne

/-- Copying the assets puts a copy of each, if the path of their directory leads apart from the
output. -/
theorem copyAssets_eq_ok {n : Nat} {schedule : Schedule Path} (hapart : Apart (output.place d.here) a)
    (hl : d.locate? assets = some a) :
    StaticSite.copyAssets d assets output schedule = (d', .ok n) ↔
      putAll (fun source => output.join (source.relativeTo assets)) id (bytesAt d) schedule.late d
          (schedule.take (d.filesUnder assets)) = (d', .ok ()) ∧
        n = (d.filesUnder assets).length := by
  have hrun : ∀ z, schedule.forEach (fun d source => copyAsset d assets output source) d
        (d.filesUnder assets) = (z, .ok ()) ↔
      putAll (fun source => output.join (source.relativeTo assets)) id (bytesAt d) schedule.late d
        (schedule.take (d.filesUnder assets)) = (z, .ok ()) := by
    intro z
    have hsame : ∀ source ∈ schedule.take (d.filesUnder assets), ∀ d₁,
        FilledBelow d (output.place d.here) d₁ → copyAsset d₁ assets output source =
          putContent (output.join (source.relativeTo assets)) source (bytesAt d source) d₁ :=
      fun source hsource d₁ hbelow =>
        copyAsset_eq_putContent hapart hl (Schedule.mem_take.1 hsource) hbelow
    refine forEach_eq_ok_congr (.refl d _) hsame fun source hsource d₁ d₂ hbelow hput => ?_
    -- one asset more keeps to the output
    obtain ⟨names, content, rfl, hcontent, hrelative, -⟩ :=
      (Disk.mem_filesUnder_of_locate? hl).1 (Schedule.mem_take.1 hsource)
    refine hbelow.filled (putContent_puts hput).filled fun file hfile => ?_
    obtain ⟨before, hbefore, -⟩ := hbelow
    rw [List.mem_singleton.1 hfile]
    simp only [hrelative, hbefore.here_eq]
    exact ⟨names, (place_copyPath d.here output hcontent).symm⟩
  rw [StaticSite.copyAssets, ← hrun]
  rcases schedule.forEach (fun d source => copyAsset d assets output source) d
    (d.filesUnder assets) with ⟨z, e | _⟩
  · simp
  · simp [eq_comm]

/-- The copies of all files below the assets, in whatever order. -/
theorem lookup_copies (hl : d.locate? assets = some a)
    (hsources : ∀ source, source ∈ sources ↔ source ∈ d.filesUnder assets) (l : Location) :
    (copies d assets output sources).lookup l =
      copied? d.tree a (output.place d.here) l := by
  refine lookup_eq_of_mem (fun file hfile => ?_) (fun l content hcopied => ?_) l
  · obtain ⟨source, hsource, rfl⟩ := List.mem_map.1 (List.mem_reverse.1 hfile)
    obtain ⟨names, content, -, hcontent, hrelative, hread⟩ :=
      (Disk.mem_filesUnder_of_locate? hl).1 ((hsources source).1 hsource)
    have hplace := place_copyPath d.here output hcontent
    rw [copyPath] at hplace
    rw [hrelative, hplace, copied?_append, hcontent, bytesAt, hread, Option.getD_some]
  · rw [copied?] at hcopied
    split at hcopied
    · next hstart =>
      obtain ⟨names, rfl⟩ := hstart
      rw [List.drop_left] at hcopied
      have hrelative := Path.relativeTo_foldl_child (Disk.text_ne_of_locate? hl)
        (FileTree.isFileName_of_content? hcopied)
      have hmem : names.foldl Path.child assets ∈ d.filesUnder assets := by
        rw [Disk.filesUnder_eq hl]
        exact List.mem_map_of_mem (FileTree.mem_namesBelow.2 ⟨content, hcopied⟩)
      refine ⟨_, List.mem_reverse.2 (List.mem_map_of_mem ((hsources _).2 hmem)), ?_⟩
      rw [hrelative]
      exact place_copyPath d.here output hcopied
    · cases hcopied

/-- **What copying assets does** if the path of their directory leads apart from the output: it fills
the output with a copy of each file below that directory, which is itself no file. -/
theorem copyAssets_filled {n : Nat} {schedule : Schedule Path}
    (hapart : Apart (output.place d.here) a) (hl : d.locate? assets = some a)
    (h : StaticSite.copyAssets d assets output schedule = (d', .ok n)) :
    d.tree.content? a = none ∧
      d.Filled (copies d assets output (schedule.take (d.filesUnder assets))) d' ∧
      ∀ names content, d.tree.content? (a ++ names) = some content →
        d'.locate? (copyPath output names) = some (output.place d.here ++ names) := by
  obtain ⟨hputs, htargets⟩ := putAll_filled ((copyAssets_eq_ok hapart hl).1 h).1
  have hfilled : d.Filled (copies d assets output (schedule.take (d.filesUnder assets))) d' := hputs
  have hleads : ∀ names content, d.tree.content? (a ++ names) = some content →
      d'.locate? (copyPath output names) = some (output.place d.here ++ names) := by
    intro names content hcontent
    have hmem : names.foldl Path.child assets ∈ d.filesUnder assets := by
      rw [Disk.filesUnder_eq hl]
      exact List.mem_map_of_mem (FileTree.mem_namesBelow.2 ⟨content, hcontent⟩)
    have htarget := htargets _ (Schedule.mem_take.2 hmem)
    rw [Path.relativeTo_foldl_child (Disk.text_ne_of_locate? hl)
      (FileTree.isFileName_of_content? hcontent)] at htarget
    rw [← place_copyPath d.here output hcontent]
    exact htarget
  refine ⟨?_, hfilled, hleads⟩
  -- a file instead of a directory would be copied to a path that leads to directories only
  rcases hcontent : d.tree.content? a with _ | content
  · rfl
  · have hnil : d.tree.content? (a ++ []) = some content := by rwa [List.append_nil]
    have hdir := Disk.isDirectory_of_locate?_join (hleads [] content hnil)
    have hfile := hfilled.fills.content? (output.place d.here ++ [])
    rw [lookup_copies hl fun _ => Schedule.mem_take, copied?_append, hnil, Option.some_or,
      FileTree.content?_eq_some] at hfile
    rw [FileTree.isDirectory, decide_eq_true_eq, hfile] at hdir
    cases hdir

theorem copyAssets_of_locate?_eq_none {n : Nat} {schedule : Schedule Path}
    (hl : d.locate? assets = none)
    (h : StaticSite.copyAssets d assets output schedule = (d', .ok n)) : d' = d := by
  have hnone : d.filesUnder assets = [] := by rw [Disk.filesUnder, hl]
  rw [StaticSite.copyAssets, Schedule.forEach, hnone, Schedule.take_nil] at h
  cases h
  rfl

end copy

/-! ## Sweeping -/

/-- A path does not lead through a location, nor to it or below it. -/
def Path.Avoids (here : Location) (p : Path) (l : Location) : Prop :=
  ∀ way, way <+: p.segments → ¬ l <+: p.placeOf here way

namespace Site

variable {d d' : Disk} {settings : BuildSettings} {rendered : Rendered} {summary : BuildSummary}
  {runtime : Runtime}

theorem get?_swept_of_not_prefix {l : Location} (hl : ¬ settings.output.place d.here <+: l) :
    (swept d settings).tree.get? l = d.tree.get? l := by
  obtain ⟨-, h | h⟩ | ⟨-, h⟩ := swept_cases d settings
  · rw [h]
    exact (FileTree.get?_prune _ _ _).trans (if_neg fun hpruned => hl hpruned.1)
  · rw [h]
    exact (FileTree.get?_emptied _ _ _).trans (if_neg fun hemptied => hl hemptied.1)
  · rw [h]

theorem locate?_swept {p : Path} (havoids : p.Avoids d.here (settings.output.place d.here)) :
    (swept d settings).locate? p = d.locate? p := by
  refine (Disk.locate?_congr (here_swept d settings) fun way hway => ?_).symm
  rw [FileTree.isDirectory, FileTree.isDirectory, get?_swept_of_not_prefix (havoids way hway)]

theorem content?_swept {l : Location} (hl : ¬ settings.output.place d.here <+: l) :
    (swept d settings).tree.content? l = d.tree.content? l := by
  rw [FileTree.content?, FileTree.content?, get?_swept_of_not_prefix hl]

/-! ## Successful builds -/

/-- The documents as they are written, the last one first. -/
def written (here : Location) (documents : List (Path × String)) : List (Location × ByteArray) :=
  (documents.map fun document => (document.1.place here, document.2.toUTF8)).reverse

theorem writePages_filled {documents : List (Path × String)} {schedule : Schedule (Path × String)}
    (h : writePages d documents schedule = (d', .ok ())) :
    d.Filled (written d.here (schedule.take documents)) d' ∧
      ∀ document ∈ documents, d'.locate? document.1 = some (document.1.place d.here) := by
  have hrun : putAll Prod.fst Prod.fst (fun document => document.2.toUTF8) schedule.late d
    (schedule.take documents) = (d', .ok ()) := h
  obtain ⟨hfilled, hleads⟩ := putAll_filled hrun
  exact ⟨hfilled, fun document hdocument => hleads document (Schedule.mem_take.2 hdocument)⟩

/-- **When a delivery succeeds**: the output is swept, the documents are written, and then the assets are
copied, if they are to be. -/
theorem deliver_eq_ok : deliver d settings rendered runtime = (d', .ok summary) ↔
    ∃ d₁ n, (if settings.clean then clear d settings.output else (d, .ok ())) =
        (swept d settings, .ok ()) ∧
      writePages (swept d settings) rendered.documents runtime.writing = (d₁, .ok ()) ∧
      (if settings.copyAssets then
          StaticSite.copyAssets d₁ settings.assets settings.output runtime.copying
        else (d₁, .ok 0)) = (d', .ok n) ∧
      summary = ⟨rendered.site.registry.size, rendered.documents.length, n⟩ := by
  rw [deliver]
  constructor
  · intro h
    obtain hsweep | ⟨-, hsweep⟩ | ⟨-, hsweep⟩ := sweep_cases d settings
    · simp only [hsweep] at h
      rcases hrun : writePages (swept d settings) rendered.documents runtime.writing with ⟨d₁, e | _⟩
      · simp only [hrun] at h
        cases h
      · simp only [hrun] at h
        rcases hcopied : (if settings.copyAssets then
          StaticSite.copyAssets d₁ settings.assets settings.output runtime.copying
          else (d₁, .ok 0)) with ⟨d₂, e | n⟩
        · simp only [hcopied] at h
          cases h
        · simp only [hcopied] at h
          cases h
          exact ⟨d₁, n, hsweep, rfl, hcopied, rfl⟩
    · simp only [hsweep] at h
      cases h
    · simp only [hsweep] at h
      cases h
  · rintro ⟨d₁, n, hsweep, hrun, hcopied, rfl⟩
    simp only [hsweep, hrun, hcopied]

/-- What it has done. -/
theorem deliver_ok (h : deliver d settings rendered runtime = (d', .ok summary)) :
    ∃ d₁, (swept d settings).Filled
        (written d.here (runtime.writing.take rendered.documents)) d₁ ∧
      (∀ document ∈ rendered.documents,
        d₁.locate? document.1 = some (document.1.place d.here)) ∧
      ((settings.copyAssets = true ∧ ∃ n,
          StaticSite.copyAssets d₁ settings.assets settings.output runtime.copying =
            (d', .ok n)) ∨
        settings.copyAssets = false ∧ d' = d₁) := by
  obtain ⟨d₁, n, -, hrun, hcopied, -⟩ := deliver_eq_ok.1 h
  obtain ⟨hfilled, hleads⟩ := writePages_filled hrun
  rw [here_swept] at hfilled hleads
  refine ⟨d₁, hfilled, hleads, ?_⟩
  rcases hcopy : settings.copyAssets with _ | _
  · simp only [hcopy] at hcopied
    cases hcopied
    exact .inr ⟨rfl, rfl⟩
  · simp only [hcopy] at hcopied
    exact .inl ⟨rfl, n, hcopied⟩

/-- Whether the assets were copied, on the disk that a build leaves behind: they were to be, and their
path leads to them. -/
def hasCopied (settings : BuildSettings) (d' : Disk) : Bool :=
  settings.copyAssets && (d'.locate? settings.assets).isSome

theorem hasCopied_eq_true :
    hasCopied settings d' = true ↔ settings.copyAssets = true ∧ d'.locate? settings.assets ≠ none := by
  rw [hasCopied, Bool.and_eq_true, Option.isSome_iff_ne_none]

/-- What is copied to a location, if the assets are copied. -/
def overlaid? (d : Disk) (settings : BuildSettings) (copied : Bool) (l : Location) :
    Option ByteArray :=
  if copied then copied? d.tree (settings.assets.place d.here) (settings.output.place d.here) l
  else none

/-- What stands at a location behind a build: a copy of an asset, or else the last one of the documents
that were written there. -/
def standing? (d : Disk) (settings : BuildSettings) (documents : List (Path × String))
    (copied : Bool) (l : Location) : Option ByteArray :=
  (overlaid? d settings copied l).or ((written d.here documents).lookup l)

/-- Documents lie apart from the assets, but that one may lie in place of their directory. -/
theorem lookup_written_append {jobs : List PageJob} {documents : List (Path × String)}
    (hplan : plan d settings runtime = .ok jobs)
    (hdocuments : ∀ document ∈ documents, ∃ job ∈ jobs, document.1 = job.output)
    {a : Location} (hapart : Apart (settings.output.place d.here) a) {names : Location}
    (hnames : names ≠ []) : (written d.here documents).lookup (a ++ names) = none := by
  refine lookup_eq_none.2 fun file hfile heq => ?_
  obtain ⟨document, hdocument, rfl⟩ := List.mem_map.1 (List.mem_reverse.1 hfile)
  obtain ⟨job, hjob, houtput⟩ := hdocuments document hdocument
  obtain ⟨l, hl, hcase⟩ := place_of_mem_plan hplan hjob d.here
  rw [houtput, hl] at heq
  -- the assets would lie above the directory of the document
  have habove : a <+: l := by
    obtain ⟨front, last, rfl⟩ := (List.eq_nil_or_concat names).resolve_left hnames
    rw [List.concat_eq_append, ← List.append_assoc] at heq
    exact ⟨front, (List.append_inj' heq.symm rfl).1⟩
  rcases hcase with hstart | rfl
  · obtain h | h := List.prefix_or_prefix_of_prefix hstart habove
    · exact hapart.1 h
    · exact hapart.2 h
  · exact hapart.2 (habove.trans (List.dropLast_prefix _))

/-- What the files of a disk hold behind a successful delivery of documents that were written one after
the other. -/
structure Delivered (d : Disk) (settings : BuildSettings) (documents : List (Path × String))
    (copied : Bool) (d' : Disk) : Prop where
  /-- what was copied or written, or else what was there before -/
  content : ∀ l, d'.tree.content? l =
    (standing? d settings documents copied l).or ((swept d settings).tree.content? l)
  /-- the paths of documents lead to their places -/
  leads : ∀ document ∈ documents, d'.locate? document.1 = some (document.1.place d.here)
  /-- paths lead where they did, but for what was swept away -/
  still : ∀ p l, (swept d settings).locate? p = some l → d'.locate? p = some l
  /-- the paths of copies lead to their places -/
  copies : copied = true → ∀ (names : Location) content,
    d.tree.content? (settings.assets.place d.here ++ names) = some content →
    d'.locate? (copyPath settings.output names) = some (settings.output.place d.here ++ names)

/-- A disk that no asset is copied to is as the documents leave it. -/
theorem Delivered.of_documents {d d₁ : Disk} {settings : BuildSettings}
    {documents : List (Path × String)}
    (hfilled : (swept d settings).Filled (written d.here documents) d₁)
    (hleads : ∀ document ∈ documents, d₁.locate? document.1 = some (document.1.place d.here)) :
    Delivered d settings documents false d₁ :=
  ⟨fun l => hfilled.fills.content? l, hleads, fun _ _ hl => hfilled.locate? hl, nofun⟩

/-- **A delivery that succeeds** leaves copies and documents behind. The assets were copied if they
were to be and their path leads to them in the end. -/
theorem delivered {jobs : List PageJob} (hplan : plan d settings runtime = .ok jobs)
    (hdocuments : ∀ document ∈ rendered.documents, ∃ job ∈ jobs, document.1 = job.output)
    (hapart : Apart (settings.output.place d.here) (settings.assets.place d.here))
    (h : deliver d settings rendered runtime = (d', .ok summary)) :
    Delivered d settings (runtime.writing.take rendered.documents) (hasCopied settings d') d' := by
  obtain ⟨d₁, hfilled, hleads, hrest⟩ := deliver_ok h
  replace hleads := fun document (hmem : document ∈ runtime.writing.take rendered.documents) =>
    hleads document (Schedule.mem_take.1 hmem)
  have htaken : ∀ document ∈ runtime.writing.take rendered.documents,
      ∃ job ∈ jobs, document.1 = job.output :=
    fun document hmem => hdocuments document (Schedule.mem_take.1 hmem)
  obtain ⟨hcopy, n, hcopied⟩ | ⟨hcopy, rfl⟩ := hrest
  · have hhere : d₁.here = d.here := hfilled.here_eq.trans (here_swept d settings)
    rw [hasCopied, hcopy, Bool.true_and]
    rcases hlocate : d₁.locate? settings.assets with _ | a
    · -- the assets cannot be reached
      obtain rfl := copyAssets_of_locate?_eq_none hlocate hcopied
      rw [hlocate]
      exact .of_documents hfilled hleads
    · obtain rfl : a = settings.assets.place d.here := hhere ▸ Disk.locate?_eq_some hlocate
      obtain ⟨hnofile, hcopied, hcopies⟩ := copyAssets_filled (hhere ▸ hapart) hlocate hcopied
      rw [hhere] at hcopies
      -- the assets are still what they were before the delivery
      have hsame : ∀ names, d₁.tree.content? (settings.assets.place d.here ++ names) =
          d.tree.content? (settings.assets.place d.here ++ names) := by
        intro names
        have hcontent := hfilled.fills.content? (settings.assets.place d.here ++ names)
        rw [content?_swept (hapart.not_prefix_append names)] at hcontent
        by_cases hnames : names = []
        · rw [hnames, List.append_nil, hnofile] at hcontent
          rw [hnames, List.append_nil, hnofile]
          exact (Option.or_eq_none_iff.1 hcontent.symm).2.symm
        · have hnone := lookup_written_append hplan htaken hapart hnames
          rw [hcontent, hnone, Option.none_or]
      rw [hcopied.locate? hlocate]
      refine ⟨fun l => ?_, fun document hdocument => hcopied.locate? (hleads document hdocument),
        fun _ _ hl => hcopied.locate? (hfilled.locate? hl),
        fun _ names content hcontent => hcopies names content ((hsame names).trans hcontent)⟩
      rw [hcopied.fills.content?, lookup_copies hlocate fun _ => Schedule.mem_take,
        hfilled.fills.content?, standing?, overlaid?, Option.isSome_some, if_pos rfl, hhere,
        Option.or_assoc]
      congr 1
      rw [copied?, copied?]
      split
      · exact hsame _
      · rfl
  · rw [hasCopied, hcopy]
    exact .of_documents hfilled hleads

/-- Where only one text is written, it is found. -/
theorem lookup_written (here : Location) {documents : List (Path × String)}
    {document : Path × String} (h : document ∈ documents)
    (honly : ∀ other ∈ documents, other.1.place here = document.1.place here →
      other.2 = document.2) :
    (written here documents).lookup (document.1.place here) = some document.2.toUTF8 := by
  rcases hlookup : (written here documents).lookup (document.1.place here) with _ | content
  · have hmem : (document.1.place here, document.2.toUTF8) ∈ written here documents :=
      List.mem_reverse.2 (List.mem_map.2 ⟨document, h, rfl⟩)
    exact absurd rfl (lookup_eq_none.1 hlookup _ hmem)
  · obtain ⟨before, behind, heq, -⟩ := List.lookup_eq_some_iff.1 hlookup
    have hmem : (document.1.place here, content) ∈ written here documents := by
      rw [heq]
      simp
    obtain ⟨other, hother, hsame⟩ := List.mem_map.1 (List.mem_reverse.1 hmem)
    obtain ⟨hplace, htext⟩ := Prod.mk.inj hsame
    rw [← htext, honly other hother hplace]

/-- **What a build leaves behind that succeeds**, if its output and its assets lie apart, in whatever
order its loops go. At the path of a document stands the asset that was copied there, or else the
document, if no other one with another text has the same place; which one stands there then is open.
So a document that has its place for itself is there in the end if and only if no asset with other
content was copied to it. The assets are all there if they were copied, which they were if they were to
be and their path leads to them in the end. It does if it led to them in the beginning and avoids the
output, which may have been emptied. -/
theorem build_delivers {reloadPort? : Option Nat}
    (hapart : Apart (settings.output.place d.here) (settings.assets.place d.here))
    (hok : build d settings reloadPort? runtime = (d', .ok summary)) :
    ∃ (site : Site) (jobs : List PageJob) (documents : List (Path × String)),
      prepare d settings reloadPort? runtime = .ok site ∧ plan d settings runtime = .ok jobs ∧
      List.Forall₂ (fun job document => document.1 = job.output ∧
        site.render job = .ok document.2) jobs documents ∧
      (∀ document ∈ documents,
        (∀ other ∈ documents, other.1.place d.here = document.1.place d.here →
          other.2 = document.2) →
        d'.read? document.1 = some ((overlaid? d settings (hasCopied settings d')
          (document.1.place d.here)).getD document.2.toUTF8)) ∧
      (settings.copyAssets = true → d'.locate? settings.assets ≠ none →
        ∀ (names : Location) content,
          d.tree.content? (settings.assets.place d.here ++ names) = some content →
          d'.read? (settings.output.join ⟨"/".intercalate names⟩) = some content) ∧
      (d.locate? settings.assets ≠ none →
        settings.assets.Avoids d.here (settings.output.place d.here) →
        d'.locate? settings.assets ≠ none) := by
  rw [build] at hok
  rcases hrender : renderAll d settings reloadPort? runtime with e | rendered
  · rw [hrender] at hok
    cases hok
  · rw [hrender] at hok
    obtain ⟨jobs, hprepare, hplan, hdocuments⟩ := renderAll_eq_ok hrender
    have hdelivered := delivered hplan (fun document hdocument =>
      (exists_of_mem_right hdocuments hdocument).imp fun _ h => ⟨h.1, h.2.1⟩) hapart hok
    refine ⟨rendered.site, jobs, rendered.documents, hprepare, hplan, hdocuments,
      fun document hdocument honly => ?_, fun hcopy hlocate names content hcontent => ?_,
      fun hlocate havoids => ?_⟩
    · have hmem : document ∈ runtime.writing.take rendered.documents :=
        Schedule.mem_take.2 hdocument
      have hwritten := lookup_written d.here hmem fun other hother =>
        honly other (Schedule.mem_take.1 hother)
      rw [Disk.read?_eq, hdelivered.leads document hmem, Option.bind_some, hdelivered.content,
        standing?, hwritten]
      rcases overlaid? d settings (hasCopied settings d') (document.1.place d.here) with _ | copy
      · rfl
      · rfl
    · have hcopied := hasCopied_eq_true.2 ⟨hcopy, hlocate⟩
      have hleads : d'.locate? (settings.output.join ⟨"/".intercalate names⟩) =
          some (settings.output.place d.here ++ names) :=
        hdelivered.copies hcopied names content hcontent
      rw [Disk.read?_eq, hleads, Option.bind_some, hdelivered.content, standing?, overlaid?,
        if_pos hcopied, copied?_append, hcontent, Option.some_or, Option.some_or]
    · obtain ⟨l, hl⟩ := Option.ne_none_iff_exists'.1 hlocate
      rw [hdelivered.still _ l ((locate?_swept havoids).trans hl)]
      exact Option.some_ne_none l

/-- A site with one page and one asset. -/
def publishing (asset : String) : Disk :=
  let put (t? : Option FileTree) (dir : Location) (name : String) (entry : Entry) :=
    t?.bind fun t => t.put? dir name entry
  let pages := put (put (some .empty) [] "pages" .directory) ["pages"] "index.vue"
    (.file "<template>page</template>".toUTF8)
  let assets := put (put pages [] "assets" .directory) ["assets"] asset (.file "asset".toUTF8)
  ⟨assets.getD .empty, []⟩

/-- Settings with which documents are left as they are. -/
def unminified : BuildSettings := { minify := false }

/-- The only job of such a site. -/
theorem plan_publishing {asset : String} {jobs : List PageJob}
    (h : plan (publishing asset) unminified = .ok jobs)
    (houtputs : (plan (publishing asset) unminified).map (fun jobs => jobs.map (·.output)) =
      .ok [⟨"dist/index.html"⟩]) :
    ∃ job, jobs = [job] ∧ job.output = ⟨"dist/index.html"⟩ := by
  rw [h] at houtputs
  have hone : jobs.map (·.output) = [⟨"dist/index.html"⟩] := Except.ok.inj houtputs
  obtain ⟨job, rest, rfl, houtput, hrest⟩ := List.map_eq_cons_iff.1 hone
  rw [List.map_eq_nil_iff] at hrest
  exact ⟨job, by rw [hrest], houtput⟩

/-- An asset beside the document of a page leaves it alone. -/
theorem build_delivers_both :
    Apart (unminified.output.place (publishing "a.txt").here)
        (unminified.assets.place (publishing "a.txt").here) ∧
      ∃ d' summary, build (publishing "a.txt") unminified none = (d', .ok summary) ∧
        d'.read? ⟨"dist/a.txt"⟩ = some "asset".toUTF8 ∧
        ∃ site job text, prepare (publishing "a.txt") unminified none = .ok site ∧
          site.render job = .ok text ∧ d'.read? ⟨"dist/index.html"⟩ = some text.toUTF8 := by
  have hapart : Apart (unminified.output.place (publishing "a.txt").here)
      (unminified.assets.place (publishing "a.txt").here) := by decide +kernel
  have hsummary : (build (publishing "a.txt") unminified none).2 = .ok ⟨0, 1, 1⟩ := by
    decide +kernel
  have hreached : (build (publishing "a.txt") unminified none).1.locate? unminified.assets ≠
      none := by decide +kernel
  have hasset : (publishing "a.txt").tree.content?
      (unminified.assets.place (publishing "a.txt").here ++ ["a.txt"]) =
        some "asset".toUTF8 := by decide +kernel
  have htarget : unminified.output.join ⟨"/".intercalate ["a.txt"]⟩ = ⟨"dist/a.txt"⟩ := by
    decide +kernel
  rcases hbuild : build (publishing "a.txt") unminified none with ⟨d', summary⟩
  rw [hbuild] at hsummary hreached
  obtain rfl : summary = .ok ⟨0, 1, 1⟩ := hsummary
  obtain ⟨site, jobs, documents, hprepare, hplan, hdocuments, hread, hassets, -⟩ :=
    build_delivers hapart hbuild
  have hcopied := hassets rfl hreached ["a.txt"] _ hasset
  rw [htarget] at hcopied
  refine ⟨hapart, d', _, rfl, hcopied, ?_⟩
  obtain ⟨job, rfl, houtput⟩ := plan_publishing hplan (by decide +kernel)
  obtain ⟨document, rest, ⟨hdocument, hrender⟩, hrest, rfl⟩ :=
    List.forall₂_cons_left_iff.1 hdocuments
  rw [List.forall₂_nil_left_iff.1 hrest] at hread
  refine ⟨site, job, document.2, hprepare, hrender, ?_⟩
  -- nothing is copied to the place of the document, which is the only one
  have hstands := hread document List.mem_cons_self fun other hother _ => by
    rw [List.mem_singleton.1 hother]
  have hnone : copied? (publishing "a.txt").tree
      (unminified.assets.place (publishing "a.txt").here)
      (unminified.output.place (publishing "a.txt").here)
      ((⟨"dist/index.html"⟩ : Path).place (publishing "a.txt").here) = none := by decide +kernel
  rw [overlaid?, hdocument, houtput, hnone, ite_self, Option.getD_none] at hstands
  exact hstands

/-- Not every successful build delivers every page: an asset can be copied over a document. -/
theorem build_overwrites_page :
    ¬ ∀ (d d' : Disk) (settings : BuildSettings) (reloadPort? : Option Nat)
        (summary : BuildSummary),
        Apart (settings.output.place d.here) (settings.pages.place d.here) →
        Apart (settings.output.place d.here) (settings.components.place d.here) →
        Apart (settings.output.place d.here) (settings.assets.place d.here) →
        build d settings reloadPort? = (d', .ok summary) →
        ∀ site jobs, prepare d settings reloadPort? = .ok site → plan d settings = .ok jobs →
          ∀ job ∈ jobs, ∀ text, site.render job = .ok text →
            d'.read? job.output = some text.toUTF8 := by
  intro h
  have hsummary : (build (publishing "index.html") unminified none).2 = .ok ⟨0, 1, 1⟩ := by
    decide +kernel
  have hread : (build (publishing "index.html") unminified none).1.read? ⟨"dist/index.html"⟩ =
      some "asset".toUTF8 := by decide +kernel
  have hdocuments : (renderAll (publishing "index.html") unminified none).map (fun rendered =>
      rendered.documents.map fun document =>
        (document.1, decide (document.2.toUTF8 = "asset".toUTF8))) =
      .ok [(⟨"dist/index.html"⟩, false)] := by decide +kernel
  rcases hbuild : build (publishing "index.html") unminified none with ⟨d', summary⟩
  rw [hbuild] at hsummary hread
  obtain rfl : summary = .ok ⟨0, 1, 1⟩ := hsummary
  rcases hrender : renderAll (publishing "index.html") unminified none with e | rendered
  · rw [hrender] at hdocuments
    cases hdocuments
  · rw [hrender] at hdocuments
    obtain ⟨document, rest, hrendered, hdocument, -⟩ :=
      List.map_eq_cons_iff.1 (Except.ok.inj hdocuments)
    obtain ⟨houtput, hother⟩ := Prod.mk.inj hdocument
    obtain ⟨jobs, hprepare, hplan, hjobs⟩ := renderAll_eq_ok hrender
    obtain ⟨job, hjob, hpath, htext⟩ :=
      exists_of_mem_right hjobs (hrendered ▸ List.mem_cons_self)
    have hpage := h _ d' _ none _ (by decide +kernel) (by decide +kernel) (by decide +kernel)
      hbuild rendered.site jobs hprepare hplan job hjob document.2 htext
    rw [← hpath, houtput, hread, Option.some_inj] at hpage
    exact of_decide_eq_false hother hpage.symm

end Site

end StaticSite
