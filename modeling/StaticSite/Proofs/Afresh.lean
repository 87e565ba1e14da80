import StaticSite.Proofs.Removal
import StaticSite.Proofs.Success
import StaticSite.Proofs.Vacancy

/-!
# Building afresh

A build that empties its output does not depend on what lay there, if its sources lie elsewhere. All
that is read before the output is emptied is the files at and below the sources (`renderAll_congr`),
and those are the same without the output (`sameUnder_prune`). Clearing the output makes one of two
trees that differ only there (`clear_alike`). At most an empty directory is left of it on one of them,
and to what is delivered that makes no difference (`deliver_alike`).

The order in which the loops of a build go does not matter either for whether it succeeds
(`deliver_any_order`). It decides which of several failures is reported, and which of several documents
stands in a place that they share.

This is about where paths lead when they are followed. One that leads into the output and out of it
again by double dots is lost when the output is emptied, and an output that itself has such a path may
not be found to be emptied. Paths without double dots have no such trouble (`avoids_of_plain`,
`locate?_of_isDirectory`, `outside_of_plain`).
-/

namespace StaticSite

/-! ## Reading the same -/

/-- Two disks have the same files at and below a path, with the same texts. -/
structure SameUnder (d d' : Disk) (dir : Path) : Prop where
  /-- the files are the same -/
  files : d.filesUnder dir = d'.filesUnder dir
  /-- so are their texts -/
  text : ∀ p ∈ d.filesUnder dir, d.readText? p = d'.readText? p

section

variable {d d' : Disk} {dir : Path}

theorem AssetIndex.load_congr (h : SameUnder d d' dir) (selects : String → Bool)
    (schedule : Schedule Path) :
    AssetIndex.load d dir selects schedule = AssetIndex.load d' dir selects schedule := by
  rw [AssetIndex.load, AssetIndex.load, ← h.files]
  refine congrArg (· >>= _) (Schedule.collect_congr fun p hp => ?_)
  rw [h.text p (List.mem_of_mem_filter hp)]

theorem Component.collect_congr (h : SameUnder d d' dir) (extension : String) :
    collect d extension dir = collect d' extension dir := by
  rw [collect, collect, h.files]

theorem Component.load_congr {I : Type} (h : SameUnder d d' dir) {extension : String} {p : Path}
    (hp : p ∈ collect d extension dir) : (load d p : Except BuildError (Component I)) = load d' p := by
  rw [load, load, h.text p (List.mem_of_mem_filter hp)]

theorem Component.loadAll_congr {I : Type} (h : SameUnder d d' dir) (extension : String)
    (schedule : Schedule Path) :
    (loadAll d extension dir schedule : Except BuildError (Registry I)) =
      loadAll d' extension dir schedule := by
  rw [loadAll, loadAll, ← collect_congr h]
  exact congrArg (· >>= _) (Schedule.collect_congr fun p hp => load_congr h hp)

end

namespace Site

variable {d d' : Disk} {settings : BuildSettings}

theorem prepare_congr (hcomponents : SameUnder d d' settings.components)
    (hassets : SameUnder d d' settings.assets) (reloadPort? : Option Nat) (runtime : Runtime) :
    prepare d settings reloadPort? runtime = prepare d' settings reloadPort? runtime := by
  rw [prepare, prepare, Component.loadAll_congr hcomponents]
  simp only [AssetIndex.load_congr hassets]

theorem plan_congr (hpages : SameUnder d d' settings.pages) (runtime : Runtime) :
    plan d settings runtime = plan d' settings runtime := by
  rw [plan, plan, ← Component.collect_congr hpages]
  refine congrArg (· >>= _) (Schedule.collect_congr fun source hsource => ?_)
  rw [planPage, planPage, Component.load_congr hpages hsource]

/-- Up to the first document written, only the files at and below the sources are read. -/
theorem renderAll_congr (h : ∀ dir ∈ settings.sources, SameUnder d d' dir)
    (reloadPort? : Option Nat) (runtime : Runtime) :
    renderAll d settings reloadPort? runtime = renderAll d' settings reloadPort? runtime := by
  have hpages := h settings.pages (by simp [BuildSettings.sources])
  have hcomponents := h settings.components (by simp [BuildSettings.sources])
  have hassets := h settings.assets (by simp [BuildSettings.sources])
  rw [renderAll, renderAll, prepare_congr hcomponents hassets, plan_congr hpages]

end Site

/-! ## Taking a location away -/

theorem FileTree.filesAt_prune (t : FileTree) {l k : Location} (h : Apart l k) :
    (t.prune l).filesAt k = t.filesAt k := by
  rw [filesAt, filesAt, prune, restrict, Std.ExtTreeMap.toList_filter, List.filterMap_filter]
  refine List.filterMap_congr fun file _ => ?_
  obtain ⟨key, content | _⟩ := file
  · dsimp only
    by_cases hkey : k.isPrefixOf key = true
    · obtain ⟨rest, rfl⟩ := List.isPrefixOf_iff_prefix.1 hkey
      have hnot : l.isPrefixOf (k ++ rest) = false :=
        Bool.eq_false_iff.2 fun hstart =>
          h.not_prefix_append rest (List.isPrefixOf_iff_prefix.1 hstart)
      rw [hnot, Bool.not_false, if_pos rfl]
    · rw [if_neg hkey, ite_self]
  · exact ite_self _

namespace Disk

variable {d : Disk} {p dir : Path} {l : Location}

/-- A path that avoids a location is followed as before when that is taken away. -/
theorem locate?_prune (d : Disk) (havoids : p.Avoids d.here l) :
    (d.withTree (d.tree.prune l)).locate? p = d.locate? p := by
  refine locate?_congr rfl fun way hway => ?_
  rw [withTree, FileTree.isDirectory, FileTree.isDirectory, FileTree.get?_prune,
    if_neg fun hpruned => havoids way hway hpruned.1]

/-- So are the files at and below it, if they lie apart from that location. -/
theorem sameUnder_prune (d : Disk) (hapart : Apart l (dir.place d.here))
    (havoids : dir.Avoids d.here l) : SameUnder d (d.withTree (d.tree.prune l)) dir := by
  have hlocate := d.locate?_prune havoids
  have hfiles : d.filesUnder dir = (d.withTree (d.tree.prune l)).filesUnder dir := by
    rw [filesUnder, filesUnder, hlocate]
    rcases hdir : d.locate? dir with _ | k
    · rfl
    · rw [locate?_eq_some hdir]
      simp only [withTree, FileTree.filesAt_prune _ hapart]
  refine ⟨hfiles, fun p hp => ?_⟩
  rcases hdir : d.locate? dir with _ | k
  · rw [filesUnder, hdir] at hp
    exact absurd hp List.not_mem_nil
  · obtain rfl := locate?_eq_some hdir
    rw [filesUnder_eq hdir] at hp
    obtain ⟨names, hnames, rfl⟩ := List.mem_map.1 hp
    obtain ⟨content, hcontent⟩ := FileTree.mem_namesBelow.1 hnames
    have hget : (d.tree.prune l).get? (dir.place d.here ++ names) =
        d.tree.get? (dir.place d.here ++ names) := by
      rw [FileTree.get?_prune, if_neg fun h => hapart.not_prefix_append names h.1]
    have hsome := FileTree.get?_ne_none_of_content? hcontent
    have hleads := locate?_foldl_child hdir hsome
    have hleads' : (d.withTree (d.tree.prune l)).locate? (names.foldl Path.child dir) =
        some (dir.place d.here ++ names) :=
      locate?_foldl_child (hlocate.trans hdir) (hget ▸ hsome)
    rw [readText?, readText?, read?, read?, entry?, entry?, hleads, hleads', Option.bind_some,
      Option.bind_some, withTree, hget]

end Disk

/-- A path without double dots avoids whatever lies apart from where it leads. -/
theorem Path.avoids_of_plain {p : Path} {here l : Location} (h : ".." ∉ p.segments)
    (hapart : Apart l (p.place here)) : p.Avoids here l :=
  fun _ hway hl => hapart.1 (hl.trans (placeOf_prefix_of_plain h here hway))

namespace Site

/-! ## Clearing -/

section

open FileTree

variable {d e : Disk} {settings : BuildSettings} {output : Path} {l : Location}

theorem clear_of_isDirectory (h : d.isDirectory output = true) :
    clear d output = ((d.removeDirectory output).1,
      if (d.removeDirectory output).2 then .ok () else .error (.file output)) := by
  have hexists : d.pathExists output = true := by
    rw [Disk.isDirectory, decide_eq_true_eq] at h
    rw [Disk.pathExists, h]
    rfl
  rw [clear, if_pos hexists]
  rcases d.removeDirectory output with ⟨d', _ | _⟩
  · rfl
  · rfl

theorem clear_of_free (h : d.tree.get? (output.place d.here) = none) :
    clear d output = (d, .ok ()) := by
  rw [clear, Disk.pathExists, Disk.entry?]
  rcases hl : d.locate? output with _ | l
  · rfl
  · rw [Disk.locate?_eq_some hl, Option.bind_some, h]
    rfl

/-- A directory that has been cleared is gone as if there had been none, or it stays behind, if the way
to it leads through it. -/
theorem clear_vacant (hfree : d.tree.get? (output.place d.here) = none) (hhere : e.here = d.here)
    (hdir : e.isDirectory output = true) (hprune : e.tree.prune (output.place d.here) = d.tree)
    (hbegins : d.tree.isDirectory d.here = true) (hdot : output.stretches.getLast? ≠ some ".") :
    clear d output = clear e output ∨ ¬ output.Outside d.here ∧
      EndAlike d.here (output.place d.here) (clear d output) (clear e output) := by
  have hstart : ¬ output.place d.here <+: d.start output := fun habove =>
    get?_ne_none_of_isDirectory (isDirectory_above (isDirectory_start hbegins output) habove) hfree
  have hremoved : (e.removeDirectory output).2 = true := by
    refine Disk.removeDirectory_succeeds hdir ?_ hdot
    rwa [Disk.start, hhere]
  have hgone : e.withTree (e.tree.prune (output.place d.here)) = d := by
    rw [hprune, Disk.withTree, hhere]
  rw [clear_of_free hfree, clear_of_isDirectory hdir, hremoved, if_pos rfl]
  by_cases houtside : output.Outside d.here
  · left
    rw [Disk.removeDirectory_eq_prune hdir (hhere ▸ houtside) hremoved, hhere, hgone]
  · obtain hremove | hremove | ⟨hremove, -⟩ := removeDirectory_cases hdir
    · left
      rw [hremove, hhere, hgone]
    · right
      have hne : output.place d.here ≠ [] := fun hnil => hstart (hnil ▸ List.nil_prefix)
      have hvacant := vacant_emptied (hhere ▸ (Disk.isDirectory_iff.1 hdir).2) hne
      rw [hprune] at hvacant
      rw [hremove, hhere]
      exact ⟨houtside, rfl, ⟨rfl, hhere⟩, .inr ⟨hbegins, hvacant⟩⟩
    · rw [hremove] at hremoved
      cases hremoved

/-- What differs in one directory that may be missing has the same files apart from that. -/
theorem filesUnder_alike {here : Location} {dir : Path} (h : Alike here l d e)
    (hapart : Apart l (dir.place here)) (havoids : dir.Avoids here l) :
    d.filesUnder dir = e.filesUnder dir := by
  obtain rfl | ⟨-, hvacant⟩ := h.same
  · rfl
  · obtain ⟨hd, rfl⟩ := h.here_eq
    have hwithout : e.withTree (e.tree.prune l) = d := by
      rw [hvacant.prune_eq, Disk.withTree, ← hd]
    rw [← hwithout]
    exact (Disk.sameUnder_prune e hapart havoids).files.symm

/-- What is delivered to an output does not depend on whether it is there. -/
theorem deliver_alike {here : Location} {rendered : Rendered}
    (hclean : settings.clean = true)
    (hclear : EndAlike here (settings.output.place here) (clear d settings.output)
      (clear e settings.output))
    (hdocuments : ∀ document ∈ rendered.documents, ∀ write,
      Passes here (settings.output.place here) document.1 write)
    (hapart : Apart (settings.output.place here) (settings.assets.place here))
    (havoids : settings.assets.Avoids here (settings.output.place here)) (runtime : Runtime) :
    EndAlike here (settings.output.place here) (deliver d settings rendered runtime)
      (deliver e settings rendered runtime) := by
  obtain ⟨d₁, e₁, cleared, hd, he, hdisk⟩ := hclear.exists_eq
  rw [deliver, deliver]
  simp only [hclean, if_true, hd, he]
  rcases cleared with error | _
  · exact ⟨rfl, hdisk⟩
  · obtain ⟨d₂, e₂, written, hd, he, hdisk⟩ :=
      (writePages_alike hdisk hdocuments runtime.writing).exists_eq
    simp only [hd, he]
    rcases written with error | _
    · exact ⟨rfl, hdisk⟩
    · rcases settings.copyAssets with _ | _
      · exact ⟨rfl, hdisk⟩
      · obtain ⟨d₃, e₃, copied, hd, he, hdisk⟩ := (copyAssets_alike hdisk
          (filesUnder_alike hdisk hapart havoids) runtime.copying).exists_eq
        simp only [if_true, hd, he]
        rcases copied with error | n
        · exact ⟨rfl, hdisk⟩
        · exact ⟨rfl, hdisk⟩

end

/-! ## Any order -/

section

variable {d d' e : Disk} {settings : BuildSettings} {runtime : Runtime} {reloadPort? : Option Nat}
  {rendered : Rendered} {summary : BuildSummary} {documents : List (Path × String)}
  {l : Location}

/-- What is prepared, planned and rendered does not depend on how the loops go. -/
theorem prepare_any_order {site : Site} (h : prepare d settings reloadPort? runtime = .ok site)
    (runtime' : Runtime) (hlibrary : runtime.library = runtime'.library) :
    prepare d settings reloadPort? runtime' = .ok site := by
  obtain ⟨library, sheets, components, pages, rendering, writing, copying⟩ := runtime
  obtain ⟨library', sheets', components', pages', rendering', writing', copying'⟩ := runtime'
  obtain rfl : library = library' := hlibrary
  have hload (dir : Path) (selects : String → Bool) (index : AssetIndex)
      (h : AssetIndex.load d dir selects sheets = .ok index) :
      AssetIndex.load d dir selects sheets' = .ok index :=
    bind_ok_imp h (fun _ hfiles => Schedule.collect_any_order hfiles _) fun _ h => h
  have hloadAll (extension : String) (dir : Path) (loaded : Registry Instance)
      (h : Component.loadAll d extension dir components = .ok loaded) :
      Component.loadAll d extension dir components' = .ok loaded :=
    bind_ok_imp h (fun _ hread => Schedule.collect_any_order hread _) fun _ h => h
  rw [prepare] at h ⊢
  rcases hfilters : settings.filters? with _ | filters
  · rw [hfilters] at h
    cases h
  · rw [hfilters] at h
    refine bind_ok_imp h (fun _ hpure => hpure) fun filters h => ?_
    refine bind_ok_imp h (fun index => hload _ _ index) fun index h => ?_
    exact bind_ok_imp h (fun loaded => hloadAll _ _ loaded) fun _ h => h

theorem plan_any_order {jobs : List PageJob} (h : plan d settings runtime = .ok jobs)
    (runtime' : Runtime) : plan d settings runtime' = .ok jobs :=
  bind_ok_imp h (fun _ hplanned => Schedule.collect_any_order hplanned _) fun _ h => h

theorem renderAll_any_order (h : renderAll d settings reloadPort? runtime = .ok rendered)
    (runtime' : Runtime) (hlibrary : runtime.library = runtime'.library) :
    renderAll d settings reloadPort? runtime' = .ok rendered := by
  refine bind_ok_imp h (fun _ hsite => prepare_any_order hsite _ hlibrary) fun site h => ?_
  refine bind_ok_imp h (fun _ hjobs => plan_any_order hjobs _) fun jobs h => ?_
  exact bind_ok_imp h (fun _ hdocuments => Schedule.collect_any_order hdocuments _) fun _ h => h

/-- Two documents with different texts have the same place. -/
def Contested (here : Location) (documents : List (Path × String)) (l : Location) : Prop :=
  ∃ document ∈ documents, ∃ other ∈ documents,
    document.1.place here = l ∧ other.1.place here = l ∧ other.2 ≠ document.2

/-- What is written to a place that is not contested does not depend on the order. -/
theorem lookup_written_any_order {here : Location} {documents' : List (Path × String)}
    (hmem : ∀ document, document ∈ documents' ↔ document ∈ documents)
    (hl : ¬ Contested here documents l) :
    (written here documents).lookup l = (written here documents').lookup l := by
  by_cases hsome : ∃ document ∈ documents, document.1.place here = l
  · obtain ⟨document, hdocument, rfl⟩ := hsome
    have honly : ∀ other ∈ documents, other.1.place here = document.1.place here →
        other.2 = document.2 := by
      intro other hother hplace
      by_contra htext
      exact hl ⟨document, hdocument, other, hother, rfl, hplace, htext⟩
    rw [lookup_written here hdocument honly, lookup_written here ((hmem document).2 hdocument)
      fun other hother => honly other ((hmem other).1 hother)]
  · have hnone : ∀ xs : List (Path × String), (∀ x ∈ xs, x ∈ documents) →
        (written here xs).lookup l = none := by
      intro xs hxs
      refine lookup_eq_none.2 fun file hfile heq => hsome ?_
      obtain ⟨document, hdocument, rfl⟩ := List.mem_map.1 (List.mem_reverse.1 hfile)
      exact ⟨document, hxs document hdocument, heq⟩
    rw [hnone documents fun _ hx => hx, hnone documents' fun x hx => (hmem x).1 hx]

/-- Documents that can be written in one order can be written in any other one. -/
theorem writePages_any_order {absolute : Bool} {schedule : Schedule (Path × String)}
    (habsolute : ∀ document ∈ documents, document.1.isAbsolute = absolute)
    (h : writePages d documents schedule = (d', .ok ())) (schedule' : Schedule (Path × String)) :
    ∃ e', writePages d documents schedule' = (e', .ok ()) ∧ e'.here = d'.here ∧
      d'.tree.SameBut (Contested d.here documents) e'.tree := by
  have hrun : putAll Prod.fst Prod.fst (fun document => document.2.toUTF8) schedule.late d
    (schedule.take documents) = (d', .ok ()) := h
  have hmem : ∀ document, document ∈ schedule'.take documents ↔ document ∈ schedule.take documents :=
    fun _ => Schedule.mem_take.trans Schedule.mem_take.symm
  obtain ⟨e', hrun', hkind⟩ := forEach_any_order hrun
    (fun document hmem => habsolute document (Schedule.mem_take.1 hmem)) rfl (fun _ => rfl) hmem
    (fun document => document.2.toUTF8) schedule'.late
  have hwritten : writePages d documents schedule' = (e', .ok ()) := hrun'
  obtain ⟨hfilled, -⟩ := writePages_filled h
  obtain ⟨hfilled', -⟩ := writePages_filled hwritten
  refine ⟨e', hwritten, hfilled'.here_eq.trans hfilled.here_eq.symm, fun l => ⟨hkind l, fun hl => ?_⟩⟩
  have hlookup : ∀ s : Schedule (Path × String), (written d.here documents).lookup l =
      (written d.here (s.take documents)).lookup l :=
    fun s => lookup_written_any_order (fun _ => Schedule.mem_take) hl
  rw [hfilled.fills.content?, hfilled'.fills.content?, ← hlookup, ← hlookup]

/-- So it is with assets that hold the same on two disks. -/
theorem copyAssets_any_order {assets output : Path} {schedule : Schedule Path} {n : Nat}
    {except : Location → Prop} (hhere : e.here = d.here)
    (hapart : Apart (output.place d.here) (assets.place d.here))
    (hsame : d.tree.SameBut except e.tree)
    (hassets : ∀ names, names ≠ [] → ¬ except (assets.place d.here ++ names))
    (h : StaticSite.copyAssets d assets output schedule = (d', .ok n)) (schedule' : Schedule Path) :
    ∃ e', StaticSite.copyAssets e assets output schedule' = (e', .ok n) ∧
      d'.tree.SameBut except e'.tree := by
  have hkind := fun l => (hsame l).1
  have hlocate := Disk.locate?_eq_of_kind? hhere hkind assets
  have hfiles := Disk.filesUnder_eq_of_kind? hhere hkind assets
  rcases hl : d.locate? assets with _ | a
  · -- the assets cannot be reached
    obtain rfl := copyAssets_of_locate?_eq_none hl h
    have hnone : e.filesUnder assets = [] := by rw [Disk.filesUnder, ← hlocate, hl]
    have hnone' : d'.filesUnder assets = [] := by rw [Disk.filesUnder, hl]
    rw [StaticSite.copyAssets, Schedule.forEach, hnone', Schedule.take_nil] at h
    cases h
    refine ⟨e, ?_, hsame⟩
    rw [StaticSite.copyAssets, Schedule.forEach, hnone, Schedule.take_nil]
    rfl
  · obtain rfl := Disk.locate?_eq_some hl
    have hl' : e.locate? assets = some (assets.place d.here) := hlocate.symm.trans hl
    have hapart' : Apart (output.place e.here) (assets.place d.here) := hhere ▸ hapart
    obtain ⟨hrun, hn⟩ := (copyAssets_eq_ok hapart hl).1 h
    obtain ⟨hnofile, hfilled, -⟩ := copyAssets_filled hapart hl h
    have habsolute : ∀ source ∈ schedule.take (d.filesUnder assets),
        (output.join (source.relativeTo assets)).isAbsolute = output.isAbsolute := by
      intro source hsource
      obtain ⟨names, content, -, hcontent, hrelative, -⟩ :=
        (Disk.mem_filesUnder_of_locate? hl).1 (Schedule.mem_take.1 hsource)
      rw [hrelative]
      exact Path.isAbsolute_join _
        (Path.isAbsolute_intercalate (FileTree.isFileName_of_content? hcontent))
    have hmem : ∀ source, source ∈ schedule'.take (e.filesUnder assets) ↔
        source ∈ schedule.take (d.filesUnder assets) := by
      intro source
      rw [Schedule.mem_take, Schedule.mem_take, hfiles]
    obtain ⟨e', hrun', hkind'⟩ :=
      forEach_any_order hrun habsolute hhere hkind hmem (bytesAt e) schedule'.late
    have hcopied : StaticSite.copyAssets e assets output schedule' = (e', .ok n) :=
      (copyAssets_eq_ok hapart' hl').2 ⟨hrun', by rw [hn, hfiles]⟩
    obtain ⟨hnofile', hfilled', -⟩ := copyAssets_filled hapart' hl' hcopied
    refine ⟨e', hcopied, fun l => ⟨hkind' l, fun hexcept => ?_⟩⟩
    -- the assets are the same, as no file stands in place of their directory
    have hassets' : ∀ names, d.tree.content? (assets.place d.here ++ names) =
        e.tree.content? (assets.place d.here ++ names) := by
      intro names
      by_cases hnames : names = []
      · rw [hnames, List.append_nil, hnofile, hnofile']
      · exact (hsame _).2 (hassets names hnames)
    rw [hfilled.fills.content?, hfilled'.fills.content?,
      lookup_copies hl fun _ => Schedule.mem_take, lookup_copies hl' fun _ => Schedule.mem_take,
      copied?, copied?, hhere, (hsame l).2 hexcept]
    split
    · rw [hassets']
    · rfl

/-- **A delivery that succeeds in one order succeeds in any other one**, with the same summary and with
the same files in the end but for those that are contested. -/
theorem deliver_any_order {jobs : List PageJob} {absolute : Bool}
    (hplan : plan d settings runtime = .ok jobs)
    (hdocuments : ∀ document ∈ rendered.documents, ∃ job ∈ jobs, document.1 = job.output)
    (hapart : Apart (settings.output.place d.here) (settings.assets.place d.here))
    (habsolute : ∀ document ∈ rendered.documents, document.1.isAbsolute = absolute)
    (h : deliver d settings rendered runtime = (d', .ok summary)) (runtime' : Runtime) :
    ∃ e', deliver d settings rendered runtime' = (e', .ok summary) ∧
      d'.tree.SameBut (Contested d.here rendered.documents) e'.tree := by
  have hhere := here_swept d settings
  obtain ⟨d₁, n, hsweep, hwritten, hcopied, rfl⟩ := deliver_eq_ok.1 h
  obtain ⟨e₁, hwritten', hhere₁, hsame⟩ :=
    writePages_any_order habsolute hwritten runtime'.writing
  rw [hhere] at hsame
  rcases hcopy : settings.copyAssets with _ | _
  · simp only [hcopy] at hcopied
    cases hcopied
    exact ⟨e₁, deliver_eq_ok.2 ⟨e₁, 0, hsweep, hwritten', by rw [hcopy]; rfl, rfl⟩, hsame⟩
  · simp only [hcopy, if_true] at hcopied
    have hd₁ : d₁.here = d.here := (writePages_filled hwritten).1.here_eq.trans hhere
    have hfree : ∀ names, names ≠ [] →
        ¬ Contested d.here rendered.documents (settings.assets.place d₁.here ++ names) := by
      rintro names hnames ⟨document, hdocument, -, -, hplace, -⟩
      have hnone := lookup_written_append hplan hdocuments hapart hnames
      rw [hd₁] at hplace
      refine lookup_eq_none.1 hnone (document.1.place d.here, document.2.toUTF8) ?_ hplace
      exact List.mem_reverse.2 (List.mem_map.2 ⟨document, hdocument, rfl⟩)
    obtain ⟨e', hcopied', hsame'⟩ :=
      copyAssets_any_order hhere₁ (hd₁ ▸ hapart) hsame hfree hcopied runtime'.copying
    exact ⟨e', deliver_eq_ok.2 ⟨e₁, n, hsweep, hwritten', by rw [hcopy]; exact hcopied', rfl⟩, hsame'⟩

end

/-! ## Two trees -/

section

variable {settings : BuildSettings} {here : Location} {t u : FileTree}

/-- Two trees that differ at most at and below the output of a site, where none of its sources is. At
the output stands a directory or nothing. -/
structure DifferInOutput (settings : BuildSettings) (here : Location) (t u : FileTree) : Prop where
  /-- the sources lie apart from the output -/
  apart : ∀ dir ∈ settings.sources, Apart (settings.output.place here) (dir.place here)
  /-- elsewhere the trees are the same -/
  same : ∀ l, ¬ settings.output.place here <+: l → t.get? l = u.get? l
  /-- at the output stands no file -/
  noFile : ∀ v ∈ [t, u], v.content? (settings.output.place here) = none
  /-- the working directory is there -/
  begins : ∀ v ∈ [t, u], v.isDirectory here = true

/-- The path of an output leads to the directory that may stand there, and does not end in a single
dot. -/
structure CanFind (settings : BuildSettings) (here : Location) (t u : FileTree) : Prop where
  /-- the path leads to the directory -/
  leads : ∀ v ∈ [t, u], v.isDirectory (settings.output.place here) = true →
    (Disk.mk v here).locate? settings.output = some (settings.output.place here)
  /-- the path does not end in a single dot -/
  dot : settings.output.stretches.getLast? ≠ some "."

theorem DifferInOutput.symm (h : DifferInOutput settings here t u) :
    DifferInOutput settings here u t where
  apart := h.apart
  same l hl := (h.same l hl).symm
  noFile v hv := h.noFile v (by simpa [or_comm] using hv)
  begins v hv := h.begins v (by simpa [or_comm] using hv)

theorem CanFind.symm (h : CanFind settings here t u) : CanFind settings here u t where
  leads v hv := h.leads v (by simpa [or_comm] using hv)
  dot := h.dot

theorem DifferInOutput.prune_eq (h : DifferInOutput settings here t u) :
    t.prune (settings.output.place here) = u.prune (settings.output.place here) := by
  refine FileTree.ext fun l => ?_
  rw [FileTree.get?_prune, FileTree.get?_prune]
  split
  · rfl
  · next hl =>
    by_cases hstart : settings.output.place here <+: l
    · have hnil : l = [] := not_not.1 fun hne => hl ⟨hstart, hne⟩
      rw [hnil]
      rfl
    · exact h.same l hstart

/-- Trees that both have the directory are the same when it has been emptied. -/
theorem DifferInOutput.emptied_eq (h : DifferInOutput settings here t u)
    (ht : t.isDirectory (settings.output.place here) = true)
    (hu : u.isDirectory (settings.output.place here) = true) :
    t.emptied (settings.output.place here) = u.emptied (settings.output.place here) := by
  refine FileTree.ext fun l => ?_
  rw [FileTree.get?_emptied, FileTree.get?_emptied]
  split
  · rfl
  · next hl =>
    by_cases hplace : l = settings.output.place here
    · rw [hplace, of_decide_eq_true ht, of_decide_eq_true hu]
    · exact h.same l fun hstart => hl ⟨hstart, hplace⟩

/-- Up to the first document written, nothing in the output is read. -/
theorem DifferInOutput.renderAll_eq (h : DifferInOutput settings here t u)
    (hthrough : ∀ dir ∈ settings.sources, dir.Avoids here (settings.output.place here))
    (reloadPort? : Option Nat) (runtime : Runtime) :
    renderAll ⟨t, here⟩ settings reloadPort? runtime =
      renderAll ⟨u, here⟩ settings reloadPort? runtime := by
  -- what is read of either tree is what is left of it without the output
  have hread (v : FileTree) : renderAll ⟨v, here⟩ settings reloadPort? runtime =
      renderAll ⟨v.prune (settings.output.place here), here⟩ settings reloadPort? runtime := by
    refine renderAll_congr (fun dir hdir => ?_) reloadPort? runtime
    exact Disk.sameUnder_prune ⟨v, here⟩ (h.apart dir hdir) (hthrough dir hdir)
  rw [hread t, hread u, h.prune_eq]

/-- At the output the path leads to a directory, or there is nothing. -/
theorem DifferInOutput.output_cases (h : DifferInOutput settings here t u)
    (hfind : CanFind settings here t u) {v : FileTree} (hv : v ∈ [t, u]) :
    (Disk.mk v here).isDirectory settings.output = true ∨
      v.get? (settings.output.place here) = none := by
  rcases hget : v.get? (settings.output.place here) with _ | content | _
  · exact .inr rfl
  · have hfile := h.noFile v hv
    rw [FileTree.content?_eq_some.2 hget] at hfile
    cases hfile
  · left
    have hdir : v.isDirectory (settings.output.place here) = true := decide_eq_true hget
    exact Disk.isDirectory_iff.2 ⟨hfind.leads v hv hdir, hdir⟩

/-- Clearing the output makes one of the two trees, but for an empty directory with which one of them
may be left. -/
theorem DifferInOutput.clear_alike (h : DifferInOutput settings here t u)
    (hfind : CanFind settings here t u) :
    clear ⟨t, here⟩ settings.output = clear ⟨u, here⟩ settings.output ∨
      ¬ settings.output.Outside here ∧
        (EndAlike here (settings.output.place here) (clear ⟨t, here⟩ settings.output)
            (clear ⟨u, here⟩ settings.output) ∨
          EndAlike here (settings.output.place here) (clear ⟨u, here⟩ settings.output)
            (clear ⟨t, here⟩ settings.output)) := by
  -- only the second tree has the directory
  have hone : ∀ {v w : FileTree}, DifferInOutput settings here v w → CanFind settings here v w →
      v.get? (settings.output.place here) = none →
      (Disk.mk w here).isDirectory settings.output = true →
      clear ⟨v, here⟩ settings.output = clear ⟨w, here⟩ settings.output ∨
        ¬ settings.output.Outside here ∧
          EndAlike here (settings.output.place here) (clear ⟨v, here⟩ settings.output)
            (clear ⟨w, here⟩ settings.output) := by
    intro v w h hfind hfree hdir
    refine clear_vacant (d := ⟨v, here⟩) hfree rfl hdir ?_ (h.begins v (by simp)) hfind.dot
    exact h.prune_eq.symm.trans (FileTree.prune_eq_self hfree)
  obtain ht | ht := h.output_cases hfind (v := t) (by simp)
  · obtain hu | hu := h.output_cases hfind (v := u) (by simp)
    · left
      have hempty := h.emptied_eq (Disk.isDirectory_iff.1 ht).2 (Disk.isDirectory_iff.1 hu).2
      rw [clear_of_isDirectory ht, clear_of_isDirectory hu,
        Disk.removeDirectory_congr ht hu rfl hempty h.prune_eq]
    · obtain heq | ⟨houtside, halike⟩ := hone h.symm hfind.symm hu ht
      · exact .inl heq.symm
      · exact .inr ⟨houtside, .inr halike⟩
  · obtain hu | hu := h.output_cases hfind (v := u) (by simp)
    · exact (hone h hfind ht hu).imp_right fun h => ⟨h.1, .inl h.2⟩
    · left
      have heq : t = u := by
        rw [← FileTree.prune_eq_self ht, ← FileTree.prune_eq_self hu, h.prune_eq]
      rw [heq]

/-- Two trees agree at a location, unless it is that of an output whose way leads through it. -/
def AgreeAt (settings : BuildSettings) (here l : Location) (t u : FileTree) : Prop :=
  (l = settings.output.place here → settings.output.Outside here) → t.get? l = u.get? l

theorem agreeAt_of_endAlike {α : Type} {r s : Disk × α} {l : Location}
    (h : EndAlike here (settings.output.place here) r s) (houtside : ¬ settings.output.Outside here) :
    AgreeAt settings here l r.1.tree s.1.tree :=
  fun hl => h.disk.get?_eq fun heq => houtside (hl heq)

/-- Paths of documents start where that of the output does. -/
theorem isAbsolute_of_mem_plan {d : Disk} {runtime : Runtime} {jobs : List PageJob} {job : PageJob}
    (hplan : plan d settings runtime = .ok jobs) (hjob : job ∈ jobs) :
    job.output.isAbsolute = settings.output.isAbsolute := by
  obtain ⟨route?, houtput, hpages, names, hnames, hsource⟩ := exists_of_mem_plan hplan hjob
  have hmirrored : (Page.mirrored settings.output names).isAbsolute = settings.output.isAbsolute :=
    Path.isAbsolute_join _
      (Path.isAbsolute_intercalate (Page.isFileName_of_mem_dropLast hnames))
  have hindex (dir : Path) : (dir.child "index.html").isAbsolute = dir.isAbsolute :=
    Path.isAbsolute_join _ (Path.isAbsolute_of_plain Page.isFileName_index.plain.1)
  obtain ⟨-, heq⟩ | ⟨-, -, name, -, hplain, heq⟩ := Page.outputPath_eq_ok houtput hpages hnames hsource
  · rw [heq, hindex, hmirrored]
  · rw [heq, hindex, ← hmirrored]
    exact Path.isAbsolute_join _ (Path.isAbsolute_of_plain hplain)

/-- With the same runtime the result is the same, and so is what is left if it is no error. -/
theorem build_eq_of_differ (reloadPort? : Option Nat) (hclean : settings.clean = true)
    (hdiffer : DifferInOutput settings here t u)
    (hthrough : ∀ dir ∈ settings.sources, dir.Avoids here (settings.output.place here))
    (hfind : CanFind settings here t u) (runtime : Runtime) :
    (build ⟨t, here⟩ settings reloadPort? runtime).2 =
        (build ⟨u, here⟩ settings reloadPort? runtime).2 ∧
      ∀ summary, (build ⟨t, here⟩ settings reloadPort? runtime).2 = .ok summary →
        ∀ l, AgreeAt settings here l (build ⟨t, here⟩ settings reloadPort? runtime).1.tree
          (build ⟨u, here⟩ settings reloadPort? runtime).1.tree := by
  rw [build, build, hdiffer.renderAll_eq hthrough]
  rcases hrendered : renderAll ⟨u, here⟩ settings reloadPort? runtime with e | rendered
  · exact ⟨rfl, fun summary h => by cases h⟩
  · dsimp only
    obtain hsame | ⟨houtside, halike⟩ := hdiffer.clear_alike hfind
    · have hdeliver : deliver ⟨t, here⟩ settings rendered runtime =
          deliver ⟨u, here⟩ settings rendered runtime := by
        rw [deliver, deliver, hclean, if_pos rfl, if_pos rfl, hsame]
      rw [hdeliver]
      exact ⟨rfl, fun _ _ _ _ => rfl⟩
    · obtain ⟨jobs, -, hplan, hjobs⟩ := renderAll_eq_ok hrendered
      have hdocuments : ∀ document ∈ rendered.documents, ∀ write,
          Passes here (settings.output.place here) document.1 write := by
        intro document hdocument write
        obtain ⟨job, hjob, heq, -⟩ := exists_of_mem_right hjobs hdocument
        rw [heq]
        exact passes_of_mem_plan hplan hjob
      have hassets : settings.assets ∈ settings.sources := by simp [BuildSettings.sources]
      have hapart := hdiffer.apart _ hassets
      have havoids := hthrough _ hassets
      obtain halike | halike := halike
      · have hend := deliver_alike hclean halike hdocuments hapart havoids runtime
        exact ⟨hend.answer, fun _ _ _ => agreeAt_of_endAlike hend houtside⟩
      · have hend := deliver_alike hclean halike hdocuments hapart havoids runtime
        exact ⟨hend.answer.symm, fun _ _ _ hl => (agreeAt_of_endAlike hend houtside hl).symm⟩

/-- **A build that empties its output starts afresh.** On two trees that differ at most in the output
it has the same result, be it a summary or an error, and leaves the same behind if it succeeds, if its
loops go the same way. However they go, it succeeds on one tree if it does on the other one, with the
same summary, and then leaves the same behind, in the output as everywhere, but for what is in a file
that two documents with different texts have the place of. This is so if the paths of the sources do
not lead through the output, and the path of the output leads to the directory that may stand there and
does not end in a single dot. If it leads through that directory, it can be that a build which puts
nothing there leaves the empty directory behind on one of the trees only. -/
theorem build_afresh (reloadPort? : Option Nat) (hclean : settings.clean = true)
    (hdiffer : DifferInOutput settings here t u)
    (hthrough : ∀ dir ∈ settings.sources, dir.Avoids here (settings.output.place here))
    (hfind : CanFind settings here t u) :
    (∀ runtime,
      (build ⟨t, here⟩ settings reloadPort? runtime).2 =
        (build ⟨u, here⟩ settings reloadPort? runtime).2 ∧
      ∀ summary, (build ⟨t, here⟩ settings reloadPort? runtime).2 = .ok summary →
        ∀ l, AgreeAt settings here l (build ⟨t, here⟩ settings reloadPort? runtime).1.tree
          (build ⟨u, here⟩ settings reloadPort? runtime).1.tree) ∧
    ∀ runtime runtime' : Runtime, runtime.library = runtime'.library →
      ∀ d' summary, build ⟨t, here⟩ settings reloadPort? runtime = (d', .ok summary) →
        ∃ e' rendered, build ⟨u, here⟩ settings reloadPort? runtime' = (e', .ok summary) ∧
          renderAll ⟨t, here⟩ settings reloadPort? runtime = .ok rendered ∧
          ∀ l, ¬ Contested here rendered.documents l →
            AgreeAt settings here l d'.tree e'.tree := by
  have hsame := build_eq_of_differ reloadPort? hclean hdiffer hthrough hfind
  refine ⟨hsame, fun runtime runtime' hlibrary d' summary hok => ?_⟩
  -- the other tree is built with the same runtime first
  obtain ⟨hresult, htree⟩ := hsame runtime
  rw [hok] at hresult htree
  rcases hother : build ⟨u, here⟩ settings reloadPort? runtime with ⟨e₁, result⟩
  rw [hother] at hresult htree
  obtain rfl : Except.ok summary = result := hresult
  rw [build] at hother
  rcases hrendered : renderAll ⟨u, here⟩ settings reloadPort? runtime with e | rendered
  · rw [hrendered] at hother
    cases hother
  · rw [hrendered] at hother
    obtain ⟨jobs, -, hplan, hjobs⟩ := renderAll_eq_ok hrendered
    have hdocuments : ∀ document ∈ rendered.documents, ∃ job ∈ jobs, document.1 = job.output :=
      fun document hdocument =>
        (exists_of_mem_right hjobs hdocument).imp fun _ h => ⟨h.1, h.2.1⟩
    have habsolute : ∀ document ∈ rendered.documents,
        document.1.isAbsolute = settings.output.isAbsolute := by
      intro document hdocument
      obtain ⟨job, hjob, heq⟩ := hdocuments document hdocument
      rw [heq, isAbsolute_of_mem_plan hplan hjob]
    have hapart : Apart (settings.output.place here) (settings.assets.place here) :=
      hdiffer.apart settings.assets (by simp [BuildSettings.sources])
    obtain ⟨e', hdelivered, hbut⟩ :=
      deliver_any_order hplan hdocuments hapart habsolute hother runtime'
    refine ⟨e', rendered, ?_, ?_, fun l hl hagree => ?_⟩
    · rw [build, renderAll_any_order hrendered runtime' hlibrary]
      exact hdelivered
    · rw [hdiffer.renderAll_eq hthrough, hrendered]
    · exact (htree summary rfl l hagree).trans (hbut.get?_eq hl)

end

/-- A site with one page and one asset, and with an output directory. -/
def beforehand : FileTree :=
  ((publishing "a.txt").tree.put? [] "dist" .directory).getD .empty

/-- The same with something in the output. -/
def leftover (name : String) (entry : Entry) : FileTree :=
  (beforehand.put? ["dist"] name entry).getD .empty

theorem differInOutput_leftover {settings : BuildSettings} {name : String} {entry : Entry}
    (hput : (beforehand.put? ["dist"] name entry).isSome = true)
    (hplace : settings.output.place [] = ["dist"])
    (hapart : ∀ dir ∈ settings.sources, Apart ["dist"] (dir.place [])) :
    DifferInOutput settings [] (leftover name entry) beforehand := by
  obtain ⟨t, ht⟩ := Option.isSome_iff_exists.1 hput
  have hget : ∀ l, l ≠ ["dist"] ++ [name] → (leftover name entry).get? l = beforehand.get? l := by
    intro l hl
    rw [leftover, ht, Option.getD_some, FileTree.get?_put? ht, if_neg hl]
  have hnofile : beforehand.content? ["dist"] = none := by decide +kernel
  refine ⟨hplace ▸ hapart, fun l hl => hget l fun heq => hl ?_, fun v hv => ?_, fun _ _ => rfl⟩
  · rw [hplace, heq]
    exact ⟨[name], rfl⟩
  · rw [hplace]
    rcases List.mem_cons.1 hv with rfl | hv
    · rw [FileTree.content?, hget _ (by simp)]
      exact hnofile
    · rw [List.mem_singleton.1 hv]
      exact hnofile

/-- The other way round. -/
def backwards {α : Type} : Schedule α := ⟨List.reverse, List.reverse_perm, 0⟩

/-- An old file in the output makes no difference, nor does the order. -/
theorem build_afresh_leftover :
    (build ⟨leftover "old" (.file "old".toUTF8), []⟩ emptying none).2 = .ok ⟨0, 1, 1⟩ ∧
      (build ⟨beforehand, []⟩ emptying none).2 = .ok ⟨0, 1, 1⟩ ∧
      (build ⟨leftover "old" (.file "old".toUTF8), []⟩ emptying none).1.tree =
        (build ⟨beforehand, []⟩ emptying none).1.tree ∧
      (build ⟨beforehand, []⟩ emptying none
        { writing := backwards, copying := backwards }).2 = .ok ⟨0, 1, 1⟩ := by
  have hdiffer : DifferInOutput emptying [] (leftover "old" (.file "old".toUTF8)) beforehand :=
    differInOutput_leftover (by decide +kernel) (by decide +kernel) (by decide +kernel)
  have hplain : ∀ dir ∈ emptying.sources, ".." ∉ dir.segments := by decide +kernel
  have houtput : ".." ∉ emptying.output.segments := by decide +kernel
  have hafresh := build_afresh none rfl hdiffer
    (fun dir hdir => Path.avoids_of_plain (hplain dir hdir) (hdiffer.apart dir hdir))
    ⟨fun v _ hdir => Disk.locate?_of_isDirectory (by decide) houtput hdir, by decide +kernel⟩
  have hsummary : (build ⟨leftover "old" (.file "old".toUTF8), []⟩ emptying none).2 =
      .ok ⟨0, 1, 1⟩ := by decide +kernel
  obtain ⟨hresult, htree⟩ := hafresh.1 {}
  have hagain := hafresh.2 {} { writing := backwards, copying := backwards } rfl
  clear hafresh
  -- of the first build only its result counts
  generalize hbuild : build ⟨leftover "old" (.file "old".toUTF8), []⟩ emptying none = first
    at hsummary hresult htree hagain ⊢
  obtain ⟨d', result⟩ := first
  obtain rfl : result = .ok ⟨0, 1, 1⟩ := hsummary
  obtain ⟨e', -, hother, -⟩ := hagain d' _ rfl
  exact ⟨rfl, hresult.symm,
    FileTree.ext fun l => htree _ rfl l fun _ => Path.outside_of_plain houtput [],
    congrArg Prod.snd hother⟩

/-- A site with two pages that have no template. -/
def faulty : Disk :=
  let put (t? : Option FileTree) (dir : Location) (name : String) (entry : Entry) :=
    t?.bind fun t => t.put? dir name entry
  let page := put (put (some .empty) [] "pages" .directory) ["pages"] "a.vue" (.file "".toUTF8)
  let pages := put page ["pages"] "b.vue" (.file "".toUTF8)
  ⟨pages.getD .empty, []⟩

/-- Without the conditions on paths it does not hold: a path that leads to the pages through the output
finds them only as long as the output is as it was, an output with a path through a missing directory
is not emptied, and one that ends in a dot cannot be taken away, which is no matter where there is
none. Nor does it hold whichever way the loops go: even on a single tree another page may be the first
one that fails, and the other one of two documents may stand in a place that they share. -/
theorem build_depends_on_output :
    (¬ ∀ (settings : BuildSettings) (here : Location) (t u : FileTree) (reloadPort? : Option Nat),
        settings.clean = true → DifferInOutput settings here t u →
        (build ⟨t, here⟩ settings reloadPort?).2 = (build ⟨u, here⟩ settings reloadPort?).2) ∧
      (¬ ∀ (settings : BuildSettings) (here : Location) (t u : FileTree) (reloadPort? : Option Nat)
          (summary : BuildSummary),
        settings.clean = true → DifferInOutput settings here t u →
        (build ⟨t, here⟩ settings reloadPort?).2 = .ok summary →
        SameBelow (settings.output.place here) (build ⟨t, here⟩ settings reloadPort?).1.tree
          (build ⟨u, here⟩ settings reloadPort?).1.tree) ∧
      (∃ t u, DifferInOutput { emptying with output := ⟨"dist/."⟩ } [] t u ∧
        (build ⟨t, []⟩ { emptying with output := ⟨"dist/."⟩ } none).2 =
          .error (.file ⟨"dist/."⟩) ∧
        (build ⟨u, []⟩ { emptying with output := ⟨"dist/."⟩ } none).2 = .ok ⟨0, 1, 1⟩) ∧
      (∃ runtime : Runtime, DifferInOutput emptying [] faulty.tree faulty.tree ∧
        (build faulty emptying none).2 =
          .error (.source ⟨"pages/a.vue"⟩ .missingTemplate) ∧
        (build faulty emptying none runtime).2 =
          .error (.source ⟨"pages/b.vue"⟩ .missingTemplate)) ∧
      ∃ runtime : Runtime, DifferInOutput emptying [] climbing.tree climbing.tree ∧
        (build climbing emptying none).2 = .ok ⟨0, 2, 0⟩ ∧
        (build climbing emptying none runtime).2 = .ok ⟨0, 2, 0⟩ ∧
        (build climbing emptying none).1.read? ⟨"dist/index.html"⟩ ≠
          (build climbing emptying none runtime).1.read? ⟨"dist/index.html"⟩ := by
  have hself : ∀ v : FileTree, v.content? ["dist"] = none →
      DifferInOutput emptying [] v v := by
    intro v hnofile
    have hplace : Path.place [] emptying.output = ["dist"] := by decide +kernel
    refine ⟨by decide +kernel, fun _ _ => rfl, fun w hw => ?_, fun _ _ => rfl⟩
    rw [hplace]
    obtain rfl : w = v := by simpa using hw
    exact hnofile
  refine ⟨fun h => ?_, fun h => ?_, ?_,
    ⟨{ pages := backwards }, hself _ (by decide +kernel), by decide +kernel, by decide +kernel⟩,
    ⟨{ writing := backwards }, hself _ (by decide +kernel), by decide +kernel, by decide +kernel,
      by decide +kernel⟩⟩
  · let settings : BuildSettings := { emptying with pages := ⟨"dist/sub/../../pages"⟩ }
    have hdiffer : DifferInOutput settings [] (leftover "sub" .directory) beforehand :=
      differInOutput_leftover (by decide +kernel) (by decide +kernel) (by decide +kernel)
    have hfound : (build ⟨leftover "sub" .directory, []⟩ settings none).2 = .ok ⟨0, 1, 1⟩ := by
      decide +kernel
    have hlost : (build ⟨beforehand, []⟩ settings none).2 = .ok ⟨0, 0, 1⟩ := by decide +kernel
    have hsame := h settings [] _ _ none rfl hdiffer
    rw [hfound, hlost] at hsame
    exact absurd hsame (by decide)
  · let settings : BuildSettings := { emptying with output := ⟨"nope/../dist"⟩ }
    have hplace : Path.place [] settings.output = ["dist"] := by decide +kernel
    have hdiffer : DifferInOutput settings [] (leftover "old" (.file "old".toUTF8)) beforehand :=
      differInOutput_leftover (by decide +kernel) hplace (by decide +kernel)
    have hsummary : (build ⟨leftover "old" (.file "old".toUTF8), []⟩ settings none).2 =
        .ok ⟨0, 1, 1⟩ := by decide +kernel
    have hleft : (build ⟨leftover "old" (.file "old".toUTF8), []⟩ settings none).1.tree.get?
        ["dist", "old"] = some (.file "old".toUTF8) := by decide +kernel
    have hnone : (build ⟨beforehand, []⟩ settings none).1.tree.get? ["dist", "old"] = none := by
      decide +kernel
    have hsame := h settings [] _ _ none _ rfl hdiffer hsummary ["dist", "old"]
      (by rw [hplace]; exact ⟨⟨["old"], rfl⟩, by decide⟩)
    rw [hleft, hnone] at hsame
    cases hsame
  · have hplace : Path.place [] ⟨"dist/."⟩ = ["dist"] := by decide +kernel
    have hget : ∀ l, ¬ ["dist"] <+: l → (publishing "a.txt").tree.get? l = beforehand.get? l := by
      intro l hl
      obtain ⟨t, ht⟩ : ∃ t, (publishing "a.txt").tree.put? [] "dist" .directory = some t :=
        Option.isSome_iff_exists.1 (by decide +kernel)
      rw [beforehand, ht, Option.getD_some, FileTree.get?_put? ht,
        if_neg fun heq : l = [] ++ ["dist"] => hl (heq ▸ List.prefix_rfl)]
    refine ⟨beforehand, (publishing "a.txt").tree, ⟨?_, fun l hl => ?_, ?_, fun _ _ => rfl⟩, ?_, ?_⟩
    · show ∀ dir ∈ emptying.sources, Apart (Path.place [] ⟨"dist/."⟩) (dir.place [])
      decide +kernel
    · exact (hget l (hplace ▸ hl)).symm
    · show ∀ v ∈ [beforehand, (publishing "a.txt").tree],
        v.content? (Path.place [] ⟨"dist/."⟩) = none
      rw [hplace]
      decide +kernel
    · decide +kernel
    · decide +kernel

end Site

end StaticSite
