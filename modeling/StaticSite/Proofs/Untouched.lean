import StaticSite.Command.Load
import StaticSite.Proofs.Outcome
import StaticSite.Proofs.Planned

/-!
# What a build leaves alone

A build empties its output directory, if it is to, and then puts files at their targets, which are
documents and copies of assets. However it ends, no file changes anywhere else (`content?_build`). All
targets lie in the output directory, but for the documents of pages that climb out of it; so the
sources of a site are safe outside of it. Nothing keeps the output directory away from the sources,
though, and those that lie in it go with the rest when it is emptied.
-/

namespace StaticSite

/-- The directories that a site is built from. -/
def BuildSettings.sources (settings : BuildSettings) : List Path :=
  [settings.pages, settings.components, settings.assets]

/-! ## Filling some locations -/

/-- A disk on which files were filled only where that is allowed. -/
def FilledIn (d : Disk) (allowed : Location → Prop) (d' : Disk) : Prop :=
  ∃ files, d.Filled files d' ∧ ∀ file ∈ files, allowed file.1

namespace FilledIn

variable {d d₁ d₂ : Disk} {allowed allowed' : Location → Prop} {l : Location}

theorem refl (d : Disk) (allowed : Location → Prop) : FilledIn d allowed d :=
  ⟨[], .refl d, fun _ hfile => absurd hfile List.not_mem_nil⟩

theorem here_eq (h : FilledIn d allowed d₁) : d₁.here = d.here := by
  obtain ⟨files, hfilled, -⟩ := h
  exact hfilled.here_eq

theorem trans (h₁ : FilledIn d allowed d₁) (h₂ : FilledIn d₁ allowed d₂) :
    FilledIn d allowed d₂ := by
  obtain ⟨files₁, hfilled₁, hallowed₁⟩ := h₁
  obtain ⟨files₂, hfilled₂, hallowed₂⟩ := h₂
  refine ⟨files₂ ++ files₁, hfilled₁.trans hfilled₂, fun file hfile => ?_⟩
  rcases List.mem_append.1 hfile with hfile | hfile
  · exact hallowed₂ file hfile
  · exact hallowed₁ file hfile

theorem mono (h : FilledIn d allowed d₁) (himp : ∀ l, allowed l → allowed' l) :
    FilledIn d allowed' d₁ := by
  obtain ⟨files, hfilled, hallowed⟩ := h
  exact ⟨files, hfilled, fun file hfile => himp _ (hallowed file hfile)⟩

/-- Files stay as they are elsewhere. -/
theorem content?_eq (h : FilledIn d allowed d₁) (hl : ¬ allowed l) :
    d₁.tree.content? l = d.tree.content? l := by
  obtain ⟨files, hfilled, hallowed⟩ := h
  have hnone : files.lookup l = none :=
    lookup_eq_none.2 fun file hfile heq => hl (heq ▸ hallowed file hfile)
  rw [hfilled.fills.content?, hnone, Option.none_or]

end FilledIn

section

variable {here : Location}

/-- Writing fills the place of the path, or nothing. -/
theorem write_filledIn {d : Disk} (hhere : d.here = here) (p : Path) (content : ByteArray) :
    FilledIn d (· = p.place here) (d.write p content).1 := by
  obtain hfails | ⟨d', hwritten, -⟩ := d.write_cases p content
  · rw [hfails]
    exact .refl d _
  · rw [hwritten]
    refine ⟨_, (Disk.write_puts hwritten).filled, fun file hfile => ?_⟩
    rw [List.mem_singleton.1 hfile, hhere]

theorem copy_filledIn {d : Disk} (hhere : d.here = here) (source target : Path) :
    FilledIn d (· = target.place here) (d.copy source target).1 := by
  rw [Disk.copy]
  split
  · exact .refl d _
  · split
    · exact write_filledIn hhere target _
    · exact write_filledIn hhere target _

theorem makeParent_filledIn (d : Disk) (p : Path) (allowed : Location → Prop) :
    FilledIn d allowed (makeParent d p).1 :=
  ⟨[], makeParent_filled d p, fun _ hfile => absurd hfile List.not_mem_nil⟩

/-- A file that is put behind its directory fills what it fills itself. -/
theorem putFile_filledIn {d : Disk} {p reported : Path} {allowed : Location → Prop}
    {write : Disk → Disk × Bool} (hhere : d.here = here)
    (hwrite : ∀ d₁ : Disk, d₁.here = here → FilledIn d₁ allowed (write d₁).1) :
    FilledIn d allowed (putFile d p write reported).1 := by
  have hparent := makeParent_filledIn d p allowed
  rw [putFile]
  rcases hmade : makeParent d p with ⟨d₁, e | _⟩
  · rwa [hmade] at hparent
  · rw [hmade] at hparent
    have hwritten := hparent.trans (hwrite d₁ (hparent.here_eq.trans hhere))
    rcases hdone : write d₁ with ⟨d₂, _ | _⟩
    · simpa only [hdone] using hwritten
    · simpa only [hdone] using hwritten

/-- What fills only allowed places with each item does so with a list of them, up to a failure and with
what is done behind it. -/
theorem forEach_filledIn {α : Type} {f : Disk → α → Disk × Except BuildError Unit} {late : Nat}
    {allowed : Location → Prop} {xs : List α} {d : Disk} (hhere : d.here = here)
    (hf : ∀ x ∈ xs, ∀ d₁ : Disk, d₁.here = here → FilledIn d₁ allowed (f d₁ x).1) :
    FilledIn d allowed (forEach f late d xs).1 := by
  -- items that are done whatever becomes of them
  have hall : ∀ ys : List α, (∀ y ∈ ys, y ∈ xs) → ∀ d₁ : Disk, d₁.here = here →
      FilledIn d₁ allowed (ys.foldl (fun d x => (f d x).1) d₁) := by
    intro ys hys
    induction ys with
    | nil => exact fun d₁ _ => .refl d₁ allowed
    | cons y ys ih =>
      intro d₁ hhere₁
      have hstep := hf y (hys y List.mem_cons_self) d₁ hhere₁
      exact hstep.trans (ih (fun z hz => hys z (List.mem_cons_of_mem _ hz)) _
        (hstep.here_eq.trans hhere₁))
  induction xs generalizing d with
  | nil => exact .refl d allowed
  | cons x xs ih =>
    have hstep := hf x List.mem_cons_self d hhere
    rw [forEach]
    rcases hdone : f d x with ⟨d₁, e | _⟩
    · rw [hdone] at hstep
      exact hstep.trans (hall _ (fun y hy => List.mem_cons_of_mem _ (List.mem_of_mem_take hy)) d₁
        (hstep.here_eq.trans hhere))
    · rw [hdone] at hstep
      have hrest := ih (hstep.here_eq.trans hhere) (fun y hy => hf y (List.mem_cons_of_mem _ hy))
        fun ys hys => hall ys fun y hy => List.mem_cons_of_mem _ (hys y hy)
      exact hstep.trans hrest

theorem writePages_filledIn (documents : List (Path × String)) (schedule : Schedule (Path × String))
    {d : Disk} (hhere : d.here = here) :
    FilledIn d (fun l => ∃ document ∈ documents, l = document.1.place here)
      (writePages d documents schedule).1 := by
  refine forEach_filledIn hhere fun document hdocument d₁ hhere₁ => ?_
  have hpage : FilledIn d₁ (· = document.1.place here)
      (writePage d₁ document.1 document.2).1 := by
    rw [writePage]
    exact putFile_filledIn hhere₁ fun d₂ hhere₂ => write_filledIn hhere₂ document.1 _
  exact hpage.mono fun l hl => ⟨document, Schedule.mem_take.1 hdocument, hl⟩

/-- Copying the assets fills the places that the files among them have in the output. -/
theorem copyAssets_filledIn {d : Disk} (hhere : d.here = here) (assets output : Path)
    (schedule : Schedule Path) :
    FilledIn d (fun l => ∃ names, d.tree.content? (assets.place here ++ names) ≠ none ∧
      l = output.place here ++ names) (StaticSite.copyAssets d assets output schedule).1 := by
  have hcopied : FilledIn d (fun l => ∃ names, d.tree.content? (assets.place here ++ names) ≠ none ∧
      l = output.place here ++ names)
      (schedule.forEach (fun d source => copyAsset d assets output source) d
        (d.filesUnder assets)).1 := by
    refine forEach_filledIn hhere fun source hsource d₁ hhere₁ => ?_
    replace hsource := Schedule.mem_take.1 hsource
    rcases hl : d.locate? assets with _ | a
    · rw [Disk.filesUnder, hl] at hsource
      exact absurd hsource List.not_mem_nil
    · obtain rfl : a = assets.place here := hhere ▸ Disk.locate?_eq_some hl
      obtain ⟨names, content, -, hcontent, hrelative, -⟩ := (Disk.mem_filesUnder_of_locate? hl).1 hsource
      rw [copyAsset, hrelative]
      have hone : FilledIn d₁ (· = (copyPath output names).place here)
          (putFile d₁ (copyPath output names)
            (fun d => d.copy source (copyPath output names)) source).1 :=
        putFile_filledIn hhere₁ fun d₂ hhere₂ => copy_filledIn hhere₂ _ _
      refine hone.mono fun l hl => ⟨names, by simp [hcontent], ?_⟩
      rw [hl, place_copyPath here output hcontent]
  rw [StaticSite.copyAssets]
  rcases hrun : schedule.forEach (fun d source => copyAsset d assets output source) d
    (d.filesUnder assets) with ⟨d', e | _⟩
  · rwa [hrun] at hcopied
  · rwa [hrun] at hcopied

end

namespace Site

variable {d : Disk} {settings : BuildSettings} {runtime : Runtime} {l : Location}

/-! ## Targets -/

/-- Where a build puts a file. What is copied lay among the assets before or is a document that was
written there. -/
inductive Target (d : Disk) (settings : BuildSettings) (documents : List Path) : Location → Prop where
  /-- a document is put at its place -/
  | document {p : Path} (hp : p ∈ documents) : Target d settings documents (p.place d.here)
  /-- a file among the assets is copied to the same place in the output -/
  | copy {names : Location} (hcopy : settings.copyAssets = true)
      (hsource : d.tree.content? (settings.assets.place d.here ++ names) ≠ none ∨
        ∃ p ∈ documents, settings.assets.place d.here ++ names = p.place d.here) :
      Target d settings documents (settings.output.place d.here ++ names)

/-- What is left by the sweep was there before. -/
theorem get?_swept_of_ne_none (h : (swept d settings).tree.get? l ≠ none) :
    (swept d settings).tree.get? l = d.tree.get? l := by
  obtain ⟨-, heq | heq⟩ | ⟨-, heq⟩ := swept_cases d settings
  · rw [heq, Disk.withTree, FileTree.get?_prune] at h ⊢
    exact if_neg (ite_ne_left_iff.1 h).1
  · rw [heq, Disk.withTree, FileTree.get?_emptied] at h ⊢
    exact if_neg (ite_ne_left_iff.1 h).1
  · rw [heq]

theorem content?_swept_ne_none (h : (swept d settings).tree.content? l ≠ none) :
    d.tree.content? l ≠ none := by
  obtain ⟨content, hcontent⟩ := Option.ne_none_iff_exists'.1 h
  rw [FileTree.content?_eq_some] at hcontent
  have hsame := get?_swept_of_ne_none (hcontent ▸ Option.some_ne_none _)
  rw [FileTree.content?_eq_some.2 (hsame ▸ hcontent)]
  exact Option.some_ne_none content

/-- Behind the documents, what lies among the assets lay there before or is a document. -/
theorem copyAssets_targets {documents : List (Path × String)} {d₁ : Disk}
    (hpages : FilledIn (swept d settings)
      (fun l => ∃ document ∈ documents, l = document.1.place d.here) d₁)
    (hcopy : settings.copyAssets = true) (schedule : Schedule Path) :
    FilledIn d₁ (Target d settings (documents.map (·.1)))
      (StaticSite.copyAssets d₁ settings.assets settings.output schedule).1 := by
  have hhere : d₁.here = d.here := hpages.here_eq.trans (here_swept d settings)
  refine (copyAssets_filledIn hhere settings.assets settings.output _).mono fun l hl => ?_
  obtain ⟨names, hnames, rfl⟩ := hl
  refine .copy hcopy ?_
  by_cases hdocument : ∃ document ∈ documents,
      settings.assets.place d.here ++ names = document.1.place d.here
  · obtain ⟨document, hmem, heq⟩ := hdocument
    exact .inr ⟨document.1, List.mem_map_of_mem hmem, heq⟩
  · rw [hpages.content?_eq hdocument] at hnames
    exact .inl (content?_swept_ne_none hnames)

/-- A delivery fills targets only, behind the sweep. If the output cannot be swept, it fills nothing. -/
theorem deliver_filledIn (d : Disk) (settings : BuildSettings) (rendered : Rendered)
    (runtime : Runtime) :
    FilledIn (swept d settings) (Target d settings (rendered.documents.map (·.1)))
        (deliver d settings rendered runtime).1 ∨
      (deliver d settings rendered runtime).1 = d := by
  rw [deliver]
  obtain hsweep | ⟨-, hsweep⟩ | ⟨-, hsweep⟩ := sweep_cases d settings
  · left
    simp only [hsweep]
    have hpages := writePages_filledIn rendered.documents runtime.writing (here_swept d settings)
    have hwritten : FilledIn (swept d settings) (Target d settings (rendered.documents.map (·.1)))
        (writePages (swept d settings) rendered.documents runtime.writing).1 := by
      refine hpages.mono fun l hl => ?_
      obtain ⟨document, hdocument, rfl⟩ := hl
      exact .document (List.mem_map_of_mem hdocument)
    rcases hrun : writePages (swept d settings) rendered.documents runtime.writing with ⟨d₁, e | _⟩
    · simp only [hrun] at hwritten ⊢
      exact hwritten
    · simp only [hrun] at hwritten hpages ⊢
      rcases hcopy : settings.copyAssets with _ | _
      · exact hwritten
      · have hall := hwritten.trans (copyAssets_targets hpages hcopy runtime.copying)
        simp only [if_true]
        rcases hcopied : StaticSite.copyAssets d₁ settings.assets settings.output runtime.copying
          with ⟨d₂, e | n⟩
        · simpa only [hcopied] using hall
        · simpa only [hcopied] using hall
  · right
    simp only [hsweep]
  · left
    simp only [hsweep]
    exact .refl _ _

/-- **However a build ends**, a file stays as it is and none appears at a location that is not emptied
and is no target of the plan. -/
theorem content?_build (d : Disk) (settings : BuildSettings) (reloadPort? : Option Nat)
    (runtime : Runtime)
    (hswept : settings.clean = true → d.isDirectory settings.output = true →
      ¬ settings.output.place d.here <+: l)
    (htarget : ∀ jobs, plan d settings runtime = .ok jobs →
      ¬ Target d settings (jobs.map (·.output)) l) :
    (build d settings reloadPort? runtime).1.tree.content? l = d.tree.content? l := by
  rw [build]
  rcases hrender : renderAll d settings reloadPort? runtime with e | rendered
  · rfl
  · obtain ⟨jobs, -, hplan, hdocuments⟩ := renderAll_eq_ok hrender
    have houtputs : rendered.documents.map (·.1) = jobs.map (·.output) := by
      have hsame : List.Forall₂ Eq (rendered.documents.map (·.1)) (jobs.map (·.output)) := by
        rw [List.forall₂_map_left_iff, List.forall₂_map_right_iff]
        exact hdocuments.flip.imp fun document job hone => hone.1
      rwa [List.forall₂_eq_eq_eq] at hsame
    dsimp only
    obtain hfilled | hsame := deliver_filledIn d settings rendered runtime
    · rw [houtputs] at hfilled
      rw [hfilled.content?_eq (htarget jobs hplan)]
      by_cases hdir : settings.clean = true ∧ d.isDirectory settings.output = true
      · exact content?_swept (hswept hdir.1 hdir.2)
      · rw [swept, if_neg hdir]
    · rw [hsame]

/-- A target outside the output directory is the place of a document whose page climbs. -/
theorem exists_climbs_of_target {jobs : List PageJob}
    (hplan : plan d settings runtime = .ok jobs)
    (htarget : Target d settings (jobs.map (·.output)) l)
    (hl : ¬ settings.output.place d.here <+: l) :
    ∃ job ∈ jobs, Climbs settings job.source ∧ l = job.output.place d.here := by
  cases htarget with
  | document hp =>
    obtain ⟨job, hjob, rfl⟩ := List.mem_map.1 hp
    refine ⟨job, hjob, ?_, rfl⟩
    by_contra hclimbs
    have hbelow := (below_iff_of_mem_plan hplan hjob d.here).2 fun h => hclimbs h.1
    exact hl hbelow.1
  | copy hcopy hsource => exact absurd (List.prefix_append _ _) hl

/-- **What a build does to files that are there**, the sources of the site among them. Outside the
output directory it touches none, however its loops go and however it ends; only the document of a page
that climbs could lie there. In the output directory it touches none either if the directory is not
emptied, but for those that have the place of a document or of a copy. -/
theorem build_keeps_file (d : Disk) (settings : BuildSettings) (reloadPort? : Option Nat)
    (runtime : Runtime) {content : ByteArray} (hfile : d.tree.content? l = some content) :
    (¬ settings.output.place d.here <+: l →
      (∀ jobs, plan d settings runtime = .ok jobs → ∀ job ∈ jobs, Climbs settings job.source →
        l ≠ job.output.place d.here) →
      (build d settings reloadPort? runtime).1.tree.content? l = some content) ∧
    (¬ (settings.clean = true ∧ d.isDirectory settings.output = true) →
      (∀ jobs, plan d settings runtime = .ok jobs →
        ¬ Target d settings (jobs.map (·.output)) l) →
      (build d settings reloadPort? runtime).1.tree.content? l = some content) := by
  refine ⟨fun houtside hclimbs => ?_, fun hkept htarget => ?_⟩
  · rw [← hfile]
    refine content?_build d settings reloadPort? runtime (fun _ _ => houtside)
      fun jobs hplan htarget => ?_
    obtain ⟨job, hjob, hclimbing, hl⟩ := exists_climbs_of_target hplan htarget houtside
    exact hclimbs jobs hplan job hjob hclimbing hl
  · rw [← hfile]
    exact content?_build d settings reloadPort? runtime
      (fun hclean hdir => absurd ⟨hclean, hdir⟩ hkept) htarget

/-- A page is kept beside the output, and also in an output that is not emptied. -/
theorem build_keeps_file_page :
    (publishing "a.txt").tree.content? ["pages", "index.vue"] =
        some "<template>page</template>".toUTF8 ∧
      (build (publishing "a.txt") unminified none).1.tree.content? ["pages", "index.vue"] =
        some "<template>page</template>".toUTF8 ∧
      (build (publishing "a.txt") { unminified with output := ⟨"."⟩ } none).1.tree.content?
          ["pages", "index.vue"] =
        some "<template>page</template>".toUTF8 := by
  have hfile : (publishing "a.txt").tree.content? ["pages", "index.vue"] =
      some "<template>page</template>".toUTF8 := by decide +kernel
  refine ⟨hfile, (build_keeps_file _ _ none {} hfile).1 (by decide +kernel) ?_,
    (build_keeps_file _ _ none {} hfile).2 (by decide +kernel) ?_⟩
  · intro jobs hplan job hjob _
    obtain ⟨only, rfl, houtput⟩ := plan_publishing hplan (by decide +kernel)
    rw [List.mem_singleton.1 hjob, houtput]
    decide +kernel
  · intro jobs hplan htarget
    have houtputs : (plan (publishing "a.txt") { unminified with output := ⟨"."⟩ }).map
        (fun jobs => jobs.map (·.output)) = .ok [⟨"./index.html"⟩] := by decide +kernel
    rw [hplan] at houtputs
    have hone : jobs.map (·.output) = [⟨"./index.html"⟩] := Except.ok.inj houtputs
    have hplace : Path.place (publishing "a.txt").here ⟨"./index.html"⟩ = ["index.html"] := by
      decide +kernel
    rw [hone] at htarget
    generalize hl : (["pages", "index.vue"] : Location) = l at htarget
    cases htarget with
    | document hp =>
      rw [List.mem_singleton.1 hp, hplace] at hl
      exact absurd hl (by decide)
    | copy hcopy hsource =>
      have hroot : Path.place (publishing "a.txt").here ⟨"."⟩ = [] := by decide +kernel
      rw [hroot, List.nil_append] at hl
      subst hl
      obtain hfound | ⟨p, hp, heq⟩ := hsource
      · exact absurd hfound (by decide +kernel)
      · rw [List.mem_singleton.1 hp, hplace] at heq
        exact absurd heq (by decide +kernel)

/-- A build can take the sources away: with the pages for its output directory, which it is to empty,
it leaves no page. -/
theorem build_loses_source :
    ¬ ∀ (d : Disk) (i : Command.Invocation) (s : Settings) (reloadPort? : Option Nat),
        Settings.load d i = .ok s → s.check d i = .ok () →
        ∀ dir ∈ s.build.sources, ∀ (l : Location) (content : ByteArray),
          dir.place d.here <+: l → d.tree.content? l = some content →
          (build d s.build reloadPort?).1.tree.content? l = some content := by
  intro h
  let i : Command.Invocation :=
    { output? := some ⟨"pages"⟩, action := .generate { clean? := some true } }
  let s : Settings := Settings.withLine (publishing "a.txt") {} i
  have hload : Settings.load (publishing "a.txt") i = .ok s := by decide +kernel
  have hcheck : s.check (publishing "a.txt") i = .ok () := by decide +kernel
  have hbehind : (build (publishing "a.txt") s.build none).1.tree.content? ["pages", "index.vue"] =
      none := by decide +kernel
  have hkept := h _ i s none hload hcheck s.build.pages List.mem_cons_self ["pages", "index.vue"]
    "<template>page</template>".toUTF8 (by decide +kernel) (by decide +kernel)
  rw [hbehind] at hkept
  cases hkept

end Site

end StaticSite
