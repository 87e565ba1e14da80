import StaticSite.Proofs.Schedules
import StaticSite.Proofs.Writes
import StaticSite.Site.Build

/-!
# What a failing build leaves behind

A build that fails before it has rendered all its documents leaves the whole disk as it was, and so
does one that is to empty an output directory that is a file. One whose output directory has a path
that does not end in a name may empty it and then fail to take it away. After that it writes, and what
it has written by the time it fails stays: documents and copies of assets at their places, and
directories on the way to them (`Interrupted`). So the output is then as before only if nothing new was
written there and, where it was emptied, all that stood there was written again (`Restores`).
-/

namespace StaticSite

/-! ## Delivering a file -/

/-- What is put to have a file at a path: directories on the way, and the file. -/
inductive PartOf (here : Location) (p : Path) (good : ByteArray → Prop) : Location × Entry → Prop where
  /-- a directory on the way -/
  | directory {l : Location} (way : p.OnWay here l) : PartOf here p good (l, .directory)
  /-- the file at its place -/
  | file {content : ByteArray} (holds : good content) :
    PartOf here p good (p.place here, .file content)

/-- A disk is changed by nothing but what is put to have a file at a path. On a success the file is
put, and a failure is about a file. -/
def Delivers (d : Disk) (p : Path) (good : ByteArray → Prop)
    (res : Disk × Except BuildError Unit) : Prop :=
  ∃ log, d.Wrote log res.1 ∧ (∀ put ∈ log, PartOf d.here p good put) ∧
    ((res.2 = .ok () ∧ ∃ content, good content ∧ (p.place d.here, .file content) ∈ log) ∨
      ∃ q, res.2 = .error (.file q))

theorem makeParent_wrote (d : Disk) (p : Path) (good : ByteArray → Prop) :
    ∃ log, d.Wrote log (makeParent d p).1 ∧ (∀ put ∈ log, PartOf d.here p good put) ∧
      ((makeParent d p).2 = .ok () ∨ ∃ q, (makeParent d p).2 = .error (.file q)) := by
  rw [makeParent]
  split
  · exact ⟨[], .refl d, fun _ hput => absurd hput List.not_mem_nil, .inl rfl⟩
  · next dir hdir =>
    obtain ⟨log, hwrote, hlog⟩ := d.makeDirectories_wrote dir
    have hpart : ∀ put ∈ log, PartOf d.here p good put := by
      rintro ⟨l, entry⟩ hput
      obtain ⟨hentry, way, hway, hl⟩ := hlog _ hput
      obtain rfl : entry = .directory := hentry
      exact .directory ⟨dir, way, hdir, hway, hl⟩
    rcases hmade : d.makeDirectories dir with ⟨d', _ | _⟩
    · rw [hmade] at hwrote
      exact ⟨log, hwrote, hpart, .inr ⟨dir, rfl⟩⟩
    · rw [hmade] at hwrote
      exact ⟨log, hwrote, hpart, .inl rfl⟩

/-- Whatever writes a file, its directory is made before. -/
theorem putFile_delivers {d : Disk} {p reported : Path} {good : ByteArray → Prop}
    {write : Disk → Disk × Bool}
    (hwrite : ∀ d, write d = (d, false) ∨ ∃ d' content, write d = (d', true) ∧ good content ∧
      d.Wrote [(p.place d.here, .file content)] d') :
    Delivers d p good (putFile d p write reported) := by
  obtain ⟨log, hwrote, hlog, hres⟩ := makeParent_wrote d p good
  rw [putFile]
  rcases hmade : makeParent d p with ⟨d₁, e | _⟩
  · rw [hmade] at hwrote hres
    obtain hres | hres := hres
    · cases hres
    · exact ⟨log, hwrote, hlog, .inr hres⟩
  · rw [hmade] at hwrote
    obtain h | ⟨d₂, content, h, hgood, hfile⟩ := hwrite d₁
    · simp only [h]
      exact ⟨log, hwrote, hlog, .inr ⟨reported, rfl⟩⟩
    · simp only [h]
      rw [hwrote.here_eq] at hfile
      refine ⟨_, hwrote.trans hfile, fun put hput => ?_, .inl ⟨rfl, content, hgood, by simp⟩⟩
      rcases List.mem_cons.1 hput with rfl | hput
      · exact .file hgood
      · exact hlog put hput

theorem writePage_delivers (d : Disk) (output : Path) (document : String) :
    Delivers d output (· = document.toUTF8) (writePage d output document) := by
  rw [writePage]
  refine putFile_delivers fun d => ?_
  obtain h | ⟨d', h, hwrote⟩ := d.write_cases output document.toUTF8
  · exact .inl h
  · exact .inr ⟨d', _, h, rfl, hwrote⟩

theorem copyAsset_delivers (d : Disk) (assets output source : Path) :
    Delivers d (output.join (source.relativeTo assets)) (fun _ => True)
      (copyAsset d assets output source) := by
  rw [copyAsset]
  refine putFile_delivers fun d => ?_
  obtain h | ⟨d', content, h, -, hwrote⟩ :=
    d.copy_cases source (output.join (source.relativeTo assets))
  · exact .inl h
  · exact .inr ⟨d', content, h, trivial, hwrote⟩

/-! ## Delivering files -/

section forEach

variable {α : Type} {f : Disk → α → Disk × Except BuildError Unit} {target : α → Path}
  {good : α → ByteArray → Prop} {late : Nat}

/-- What delivering some files has put, and how far it came. -/
structure DeliversAll (d : Disk) (target : α → Path) (good : α → ByteArray → Prop) (xs : List α)
    (log : List (Location × Entry)) (d' : Disk) (done rest : List α) : Prop where
  /-- the items up to the one that fails, and those from it on -/
  split : xs = done ++ rest
  /-- the disk comes by puts -/
  wrote : d.Wrote log d'
  /-- nothing is put but parts of the items -/
  only : ∀ put ∈ log, ∃ x ∈ xs, PartOf d.here (target x) (good x) put
  /-- the files up to the failure are put -/
  all : ∀ x ∈ done, ∃ content, good x content ∧ ((target x).place d.here, .file content) ∈ log

/-- One item more in front. -/
theorem DeliversAll.cons {d d₁ d₂ : Disk} {x : α} {xs done rest : List α}
    {log₁ log₂ : List (Location × Entry)} (hwrote : d.Wrote log₁ d₁)
    (hlog : ∀ put ∈ log₁, PartOf d.here (target x) (good x) put)
    (hput : ∃ content, good x content ∧ ((target x).place d.here, .file content) ∈ log₁)
    (h : DeliversAll d₁ target good xs log₂ d₂ done rest) :
    DeliversAll d target good (x :: xs) (log₂ ++ log₁) d₂ (x :: done) rest := by
  have hhere := hwrote.here_eq
  refine ⟨by rw [h.split, List.cons_append], hwrote.trans h.wrote, fun put hmem => ?_, ?_⟩
  · rcases List.mem_append.1 hmem with hmem | hmem
    · obtain ⟨y, hy, hpart⟩ := h.only put hmem
      exact ⟨y, List.mem_cons_of_mem _ hy, hhere ▸ hpart⟩
    · exact ⟨x, List.mem_cons_self, hlog put hmem⟩
  · intro y hy
    rcases List.mem_cons.1 hy with rfl | hy
    · obtain ⟨content, hgood, hmem⟩ := hput
      exact ⟨content, hgood, List.mem_append_right _ hmem⟩
    · obtain ⟨content, hgood, hmem⟩ := h.all y hy
      exact ⟨content, hgood, List.mem_append_left _ (hhere ▸ hmem)⟩

/-- Items under way when one fails put nothing but their parts, too. -/
theorem foldl_delivers (hf : ∀ d x, Delivers d (target x) (good x) (f d x)) (d : Disk)
    (xs : List α) :
    ∃ log, d.Wrote log (xs.foldl (fun d x => (f d x).1) d) ∧
      ∀ put ∈ log, ∃ x ∈ xs, PartOf d.here (target x) (good x) put := by
  induction xs generalizing d with
  | nil => exact ⟨[], .refl d, fun _ hput => absurd hput List.not_mem_nil⟩
  | cons x xs ih =>
    obtain ⟨log₁, hwrote₁, hlog₁, -⟩ := hf d x
    obtain ⟨log₂, hwrote₂, hlog₂⟩ := ih (f d x).1
    refine ⟨_, hwrote₁.trans hwrote₂, fun put hput => ?_⟩
    rcases List.mem_append.1 hput with hput | hput
    · obtain ⟨y, hy, hpart⟩ := hlog₂ put hput
      exact ⟨y, List.mem_cons_of_mem _ hy, hwrote₁.here_eq ▸ hpart⟩
    · exact ⟨x, List.mem_cons_self, hlog₁ put hput⟩

theorem forEach_delivers (hf : ∀ d x, Delivers d (target x) (good x) (f d x)) (late : Nat)
    (d : Disk) (xs : List α) :
    ∃ log done rest, DeliversAll d target good xs log (forEach f late d xs).1 done rest ∧
      (((forEach f late d xs).2 = .ok () ∧ rest = []) ∨
        (∃ q, (forEach f late d xs).2 = .error (.file q)) ∧ rest ≠ []) := by
  induction xs generalizing d with
  | nil =>
    refine ⟨[], [], [], ⟨rfl, .refl d, ?_, ?_⟩, .inl ⟨rfl, rfl⟩⟩
    · exact fun _ hput => absurd hput List.not_mem_nil
    · exact fun _ hx => absurd hx List.not_mem_nil
  | cons x xs ih =>
    obtain ⟨log₁, hwrote, hlog, hres⟩ := hf d x
    rw [forEach]
    rcases hstep : f d x with ⟨d₁, e | _⟩
    · rw [hstep] at hwrote hres
      obtain ⟨hres, -⟩ | ⟨q, hres⟩ := hres
      · cases hres
      · cases hres
        obtain ⟨log₂, hwrote₂, hlog₂⟩ := foldl_delivers hf d₁ (xs.take late)
        refine ⟨log₂ ++ log₁, [], x :: xs, ⟨rfl, hwrote.trans hwrote₂, fun put hput => ?_, ?_⟩,
          .inr ⟨⟨q, rfl⟩, List.cons_ne_nil _ _⟩⟩
        · rcases List.mem_append.1 hput with hput | hput
          · obtain ⟨y, hy, hpart⟩ := hlog₂ put hput
            exact ⟨y, List.mem_cons_of_mem _ (List.mem_of_mem_take hy), hwrote.here_eq ▸ hpart⟩
          · exact ⟨x, List.mem_cons_self, hlog put hput⟩
        · exact fun _ hx => absurd hx List.not_mem_nil
    · rw [hstep] at hwrote hres
      obtain ⟨-, hput⟩ | ⟨q, hres⟩ := hres
      · obtain ⟨log₂, done, rest, hrest, hend⟩ := ih d₁
        exact ⟨_, x :: done, rest, .cons hwrote hlog hput hrest, hend⟩
      · cases hres

end forEach

/-! ## Failing builds -/

/-- A location below another one. -/
def Below (l k : Location) : Prop := l <+: k ∧ k ≠ l

theorem Below.ne_nil {l k : Location} (h : Below l k) : k ≠ [] :=
  fun hnil => h.2 (hnil.trans (List.prefix_nil.1 (hnil ▸ h.1)).symm)

/-- Two trees agree in all that lies below a location. -/
def SameBelow (l : Location) (t u : FileTree) : Prop := ∀ k, Below l k → u.get? k = t.get? k

namespace Site

variable {d d' : Disk} {settings : BuildSettings} {rendered : Rendered} {runtime : Runtime}
  {log : List (Location × Entry)}

/-! ### Sweeping -/

/-- The disk that a build writes to: with the output directory taken away or at least emptied, if that is
to be done. -/
def swept (d : Disk) (settings : BuildSettings) : Disk :=
  if settings.clean = true ∧ d.isDirectory settings.output = true then
    (d.removeDirectory settings.output).1
  else d

theorem removeDirectory_of_isDirectory {p : Path} (h : d.isDirectory p = true) :
    d.removeDirectory p =
      if !d.reachesAbove p (d.tree.emptied (p.place d.here)) then
        (d.withTree (d.tree.emptied (p.place d.here)), true)
      else if p.endsInName then (d.withTree (d.tree.prune (p.place d.here)), true)
      else (d.withTree (d.tree.emptied (p.place d.here)), false) := by
  obtain ⟨hl, hdir⟩ := Disk.isDirectory_iff.1 h
  rw [Disk.removeDirectory, hl]
  simp only [hdir, if_true]

/-- A directory is taken away, or it is emptied and stays. It stays with a failure only if its path does
not end in a name. -/
theorem removeDirectory_cases {p : Path} (h : d.isDirectory p = true) :
    d.removeDirectory p = (d.withTree (d.tree.prune (p.place d.here)), true) ∨
      d.removeDirectory p = (d.withTree (d.tree.emptied (p.place d.here)), true) ∨
      d.removeDirectory p = (d.withTree (d.tree.emptied (p.place d.here)), false) ∧
        p.endsInName = false := by
  rw [removeDirectory_of_isDirectory h]
  split
  · exact .inr (.inl rfl)
  · rcases hname : p.endsInName with _ | _
    · exact .inr (.inr ⟨rfl, rfl⟩)
    · exact .inl rfl

/-- What is swept. -/
theorem swept_cases (d : Disk) (settings : BuildSettings) :
    (settings.clean = true ∧ d.isDirectory settings.output = true) ∧
        (swept d settings = d.withTree (d.tree.prune (settings.output.place d.here)) ∨
          swept d settings = d.withTree (d.tree.emptied (settings.output.place d.here))) ∨
      ¬ (settings.clean = true ∧ d.isDirectory settings.output = true) ∧ swept d settings = d := by
  rw [swept]
  split
  · next h =>
    refine .inl ⟨h, ?_⟩
    obtain hremove | hremove | ⟨hremove, -⟩ := removeDirectory_cases h.2
    · exact .inl (congrArg Prod.fst hremove)
    · exact .inr (congrArg Prod.fst hremove)
    · exact .inr (congrArg Prod.fst hremove)
  · next h => exact .inr ⟨h, rfl⟩

theorem here_swept (d : Disk) (settings : BuildSettings) : (swept d settings).here = d.here := by
  obtain ⟨-, h | h⟩ | ⟨-, h⟩ := swept_cases d settings
  · rw [h]
    rfl
  · rw [h]
    rfl
  · rw [h]

theorem get?_swept {k : Location} (hk : Below (settings.output.place d.here) k) :
    (swept d settings).tree.get? k =
      if settings.clean = true ∧ d.isDirectory settings.output = true then none
      else d.tree.get? k := by
  obtain ⟨hswept, h | h⟩ | ⟨hswept, h⟩ := swept_cases d settings
  · rw [h, if_pos hswept]
    exact (FileTree.get?_prune _ _ _).trans (if_pos ⟨hk.1, hk.ne_nil⟩)
  · rw [h, if_pos hswept]
    exact (FileTree.get?_emptied _ _ _).trans (if_pos hk)
  · rw [h, if_neg hswept]

/-- Emptying the output sweeps it, or finds a file there, or fails for its path when it has swept it. -/
theorem sweep_cases (d : Disk) (settings : BuildSettings) :
    (if settings.clean then clear d settings.output else (d, .ok ())) =
        (swept d settings, .ok ()) ∨
      (settings.clean = true ∧ d.isFile settings.output = true) ∧
        (if settings.clean then clear d settings.output else (d, .ok ())) =
          (d, .error (.file settings.output)) ∨
      (settings.clean = true ∧ d.isDirectory settings.output = true ∧
          settings.output.endsInName = false) ∧
        (if settings.clean then clear d settings.output else (d, .ok ())) =
          (swept d settings, .error (.file settings.output)) := by
  rcases hclean : settings.clean with _ | _
  · left
    simp [swept, hclean]
  · simp only [if_true, swept, hclean, true_and]
    rcases hlocate : d.locate? settings.output with _ | l
    · left
      simp [clear, Disk.pathExists, Disk.isDirectory, Disk.entry?, hlocate]
    · rcases hentry : d.tree.get? l with _ | content | _
      · left
        simp [clear, Disk.pathExists, Disk.isDirectory, Disk.entry?, hlocate, hentry]
      · right
        left
        simp [clear, Disk.pathExists, Disk.isFile, Disk.read?, Disk.entry?, Disk.removeDirectory,
          FileTree.isDirectory, hlocate, hentry]
      · have hexists : d.pathExists settings.output = true := by
          simp [Disk.pathExists, Disk.entry?, hlocate, hentry]
        have hdir : d.isDirectory settings.output = true := by
          simp [Disk.isDirectory, Disk.entry?, hlocate, hentry]
        rw [clear, if_pos hexists, if_pos hdir]
        obtain hremove | hremove | ⟨hremove, hname⟩ := removeDirectory_cases hdir
        · exact .inl (by rw [hremove])
        · exact .inl (by rw [hremove])
        · exact .inr (.inr ⟨⟨hdir, hname⟩, by rw [hremove]⟩)

/-! ### Putting -/

/-- What a build has done that fails while it delivers. -/
structure Interrupted (runtime : Runtime) (d : Disk) (settings : BuildSettings) (rendered : Rendered)
    (log : List (Location × Entry)) (d' : Disk) : Prop where
  /-- the disk comes by puts, behind the output being emptied -/
  wrote : (swept d settings).Wrote log d'
  /-- nothing is put but documents, copies of assets and the directories on the way to them -/
  only : ∀ put ∈ log,
    (∃ job ∈ rendered.documents, PartOf d.here job.1 (· = job.2.toUTF8) put) ∨
      settings.copyAssets = true ∧ ∃ (d₁ : Disk) (source : Path),
        source ∈ d₁.filesUnder settings.assets ∧
          PartOf d.here (settings.output.join (source.relativeTo settings.assets)) (fun _ => True) put
  /-- the documents that were taken up before the failure are put, all of them if an asset fails -/
  documents : ∃ done rest, runtime.writing.take rendered.documents = done ++ rest ∧
    (∀ job ∈ done, (job.1.place d.here, .file job.2.toUTF8) ∈ log) ∧
      (rest = [] → settings.copyAssets = true)

/-- What was put leaves the output as it was. -/
structure Restores (d : Disk) (settings : BuildSettings) (log : List (Location × Entry)) :
    Prop where
  /-- what was put below the output stood there before -/
  nothing_new : ∀ k entry, Below (settings.output.place d.here) k → log.lookup k = some entry →
    d.tree.get? k = some entry
  /-- what stood there was put again, if the output was emptied -/
  nothing_lost : settings.clean = true → d.isDirectory settings.output = true →
    ∀ k, Below (settings.output.place d.here) k → d.tree.get? k ≠ none → log.lookup k ≠ none

/-- The puts decide whether the output is as it was. -/
theorem sameBelow_iff (h : (swept d settings).Wrote log d') :
    SameBelow (settings.output.place d.here) d.tree d'.tree ↔ Restores d settings log := by
  have hget : ∀ k, Below (settings.output.place d.here) k → d'.tree.get? k = (log.lookup k).or
      (if settings.clean = true ∧ d.isDirectory settings.output = true then none
        else d.tree.get? k) := by
    intro k hk
    rw [h.puts.get?, get?_swept hk]
  constructor
  · intro hsame
    refine ⟨fun k entry hk hput => ?_, fun hclean hdir k hk hold hput => ?_⟩
    · rw [← hsame k hk, hget k hk, hput, Option.some_or]
    · rw [← hsame k hk, hget k hk, hput, if_pos ⟨hclean, hdir⟩] at hold
      exact hold rfl
  · intro hrestores k hk
    rw [hget k hk]
    cases hput : log.lookup k with
    | some entry => rw [Option.some_or, hrestores.nothing_new k entry hk hput]
    | none =>
      rw [Option.none_or]
      split
      · next hswept =>
        -- nothing stood where nothing was put again
        by_contra hold
        exact hrestores.nothing_lost hswept.1 hswept.2 k hk (Ne.symm hold) hput
      · rfl

/-- The documents that are written, up to a failure. -/
theorem writePages_delivers (d : Disk) (documents : List (Path × String))
    (schedule : Schedule (Path × String)) :
    ∃ log done rest, DeliversAll d Prod.fst (fun job content => content = job.2.toUTF8)
        (schedule.take documents) log (writePages d documents schedule).1 done rest ∧
      (((writePages d documents schedule).2 = .ok () ∧ rest = []) ∨
        (∃ q, (writePages d documents schedule).2 = .error (.file q)) ∧ rest ≠ []) :=
  forEach_delivers (fun d job => writePage_delivers d job.1 job.2) schedule.late d
    (schedule.take documents)

/-- The assets that are copied, up to a failure. -/
theorem copyAssets_delivers (d : Disk) (assets output : Path) (schedule : Schedule Path) :
    ∃ log done rest, DeliversAll d (fun source => output.join (source.relativeTo assets))
        (fun _ _ => True) (schedule.take (d.filesUnder assets)) log
        (StaticSite.copyAssets d assets output schedule).1 done rest ∧
      ∀ e, (StaticSite.copyAssets d assets output schedule).2 = .error e → ∃ q, e = .file q := by
  obtain ⟨log, done, rest, h, hend⟩ :=
    forEach_delivers (fun d source => copyAsset_delivers d assets output source) schedule.late d
      (schedule.take (d.filesUnder assets))
  refine ⟨log, done, rest, ?_⟩
  rw [StaticSite.copyAssets, Schedule.forEach]
  rcases hrun : forEach (fun d source => copyAsset d assets output source) schedule.late d
    (schedule.take (d.filesUnder assets)) with ⟨d', e | _⟩
  · rw [hrun] at h hend
    refine ⟨h, fun e' he => ?_⟩
    cases he
    obtain ⟨hend, -⟩ | ⟨⟨q, hq⟩, -⟩ := hend
    · cases hend
    · cases hq
      exact ⟨q, rfl⟩
  · rw [hrun] at h
    refine ⟨h, fun e he => ?_⟩
    cases he

/-- Behind the documents up to a failure, or all of them if assets follow. -/
theorem Interrupted.of_documents {done rest : List (Path × String)}
    (h : DeliversAll (swept d settings) Prod.fst (fun job content => content = job.2.toUTF8)
      (runtime.writing.take rendered.documents) log d' done rest)
    (hrest : rest = [] → settings.copyAssets = true) :
    Interrupted runtime d settings rendered log d' := by
  have hhere := here_swept d settings
  refine ⟨h.wrote, fun put hput => .inl ?_, done, rest, h.split, fun job hjob => ?_, hrest⟩
  · obtain ⟨job, hjob, hpart⟩ := h.only put hput
    exact ⟨job, Schedule.mem_take.1 hjob, hhere ▸ hpart⟩
  · obtain ⟨content, rfl, hmem⟩ := h.all job hjob
    exact hhere ▸ hmem

/-- Behind the assets up to a failure. -/
theorem Interrupted.copy {d₁ : Disk} {log' : List (Location × Entry)} {done rest : List Path}
    (h : Interrupted runtime d settings rendered log d₁) (hcopy : settings.copyAssets = true)
    (hassets : DeliversAll d₁ (fun source => settings.output.join (source.relativeTo settings.assets))
      (fun _ _ => True) (runtime.copying.take (d₁.filesUnder settings.assets)) log' d' done rest) :
    Interrupted runtime d settings rendered (log' ++ log) d' := by
  have hhere : d₁.here = d.here := h.wrote.here_eq.trans (here_swept d settings)
  obtain ⟨done', rest', hsplit, hall, hrest⟩ := h.documents
  refine ⟨h.wrote.trans hassets.wrote, fun put hput => ?_, done', rest', hsplit,
    fun job hjob => List.mem_append_right _ (hall job hjob), hrest⟩
  rcases List.mem_append.1 hput with hput | hput
  · obtain ⟨source, hsource, hpart⟩ := hassets.only put hput
    exact .inr ⟨hcopy, d₁, source, Schedule.mem_take.1 hsource, hhere ▸ hpart⟩
  · exact h.only put hput

/-- What a delivery does to an output that it cannot sweep. -/
inductive Unswept (d : Disk) (settings : BuildSettings) : Disk → Prop where
  /-- a file is found in its place, and nothing is done -/
  | file (hclean : settings.clean = true) (hfile : d.isFile settings.output = true) :
    Unswept d settings d
  /-- it is emptied, and then its path cannot be used to take it away -/
  | dots (hclean : settings.clean = true) (hdir : d.isDirectory settings.output = true)
      (hname : settings.output.endsInName = false) : Unswept d settings (swept d settings)

/-- A delivery that fails has not begun, or is interrupted. -/
theorem deliver_error {e : BuildError} (h : (deliver d settings rendered runtime).2 = .error e) :
    (e = .file settings.output ∧ Unswept d settings (deliver d settings rendered runtime).1) ∨
      ∃ log q, e = .file q ∧
        Interrupted runtime d settings rendered log (deliver d settings rendered runtime).1 := by
  rw [deliver] at h ⊢
  obtain hsweep | ⟨⟨hclean, hfile⟩, hsweep⟩ | ⟨⟨hclean, hdir, hname⟩, hsweep⟩ :=
    sweep_cases d settings
  · right
    simp only [hsweep] at h ⊢
    obtain ⟨log, done, rest, hpages, hend⟩ :=
      writePages_delivers (swept d settings) rendered.documents runtime.writing
    rcases hrun : writePages (swept d settings) rendered.documents runtime.writing with ⟨d₁, e' | _⟩
    · -- a document cannot be written
      simp only [hrun] at hpages hend h ⊢
      obtain ⟨hend, -⟩ | ⟨⟨q, hq⟩, hrest⟩ := hend
      · cases hend
      · cases hq
        cases h
        exact ⟨log, q, rfl, .of_documents hpages fun hnil => absurd hnil hrest⟩
    · -- all documents are written, so an asset cannot be copied
      simp only [hrun] at hpages h ⊢
      rcases hcopy : settings.copyAssets with _ | _
      · rw [hcopy] at h
        cases h
      · obtain ⟨log', done', rest', hassets, hfile⟩ :=
          copyAssets_delivers d₁ settings.assets settings.output runtime.copying
        rw [hcopy] at h
        simp only [if_true] at h ⊢
        rcases hcopied : StaticSite.copyAssets d₁ settings.assets settings.output runtime.copying with
          ⟨d₂, e' | n⟩
        · rw [hcopied] at h hassets hfile
          cases h
          obtain ⟨q, rfl⟩ := hfile _ rfl
          have hwritten := Interrupted.of_documents hpages fun _ => hcopy
          exact ⟨log' ++ log, q, rfl, hwritten.copy hcopy hassets⟩
        · rw [hcopied] at h
          cases h
  · left
    simp only [hsweep] at h ⊢
    cases h
    exact ⟨rfl, .file hclean hfile⟩
  · left
    simp only [hsweep] at h ⊢
    cases h
    exact ⟨rfl, .dots hclean hdir hname⟩

/-- **What a build does that does not succeed**, in whatever order its loops go. Before the delivery it
fails without touching the disk, and so it does if the output that it is to empty is a file. If the path
of the output does not end in a name, it may have emptied the output and not be able to take it away, and
then the output is as it was if and only if it was empty. Otherwise the delivery is interrupted by a file
that cannot be written or copied, and then the output is as it was if and only if what was put restores
it. -/
theorem failed_build_keeps_output_iff (d : Disk) (settings : BuildSettings)
    (reloadPort? : Option Nat) (runtime : Runtime) :
    (∃ summary, (build d settings reloadPort? runtime).2 = .ok summary) ∨
    (((∃ e, renderAll d settings reloadPort? runtime = .error e) ∨
        settings.clean = true ∧ d.isFile settings.output = true) ∧
      (build d settings reloadPort? runtime).1 = d) ∨
    ((settings.clean = true ∧ d.isDirectory settings.output = true ∧
        settings.output.endsInName = false) ∧
      (build d settings reloadPort? runtime).2 = .error (.file settings.output) ∧
      (build d settings reloadPort? runtime).1 = swept d settings ∧
      (SameBelow (settings.output.place d.here) d.tree
          (build d settings reloadPort? runtime).1.tree ↔
        ∀ k, Below (settings.output.place d.here) k → d.tree.get? k = none)) ∨
    ∃ rendered log q, renderAll d settings reloadPort? runtime = .ok rendered ∧
      (build d settings reloadPort? runtime).2 = .error (.file q) ∧
      Interrupted runtime d settings rendered log (build d settings reloadPort? runtime).1 ∧
      (SameBelow (settings.output.place d.here) d.tree
          (build d settings reloadPort? runtime).1.tree ↔
        Restores d settings log) := by
  rw [build]
  rcases hrender : renderAll d settings reloadPort? runtime with e | rendered
  · exact .inr (.inl ⟨.inl ⟨e, rfl⟩, rfl⟩)
  · dsimp only
    rcases hres : (deliver d settings rendered runtime).2 with e | summary
    · obtain ⟨rfl, hunswept⟩ | ⟨log, q, rfl, hinterrupted⟩ := deliver_error hres
      · generalize (deliver d settings rendered runtime).1 = d' at hunswept
        cases hunswept with
        | file hclean hfile => exact .inr (.inl ⟨.inr ⟨hclean, hfile⟩, rfl⟩)
        | dots hclean hdir hname =>
          refine .inr (.inr (.inl ⟨⟨hclean, hdir, hname⟩, rfl, rfl, ?_⟩))
          refine forall₂_congr fun k hk => ?_
          rw [get?_swept hk, if_pos ⟨hclean, hdir⟩, eq_comm]
      · exact .inr (.inr (.inr ⟨rendered, log, q, rfl, rfl, hinterrupted,
          sameBelow_iff hinterrupted.wrote⟩))
    · exact .inl ⟨summary, rfl⟩

/-- A site with a page `a` and an asset `a`, which is to lie where the page has its directory, and an
output with an old file. -/
def clashing : Disk :=
  let put (t? : Option FileTree) (dir : Location) (name : String) (entry : Entry) :=
    t?.bind fun t => t.put? dir name entry
  let pages := put (put (some .empty) [] "pages" .directory) ["pages"] "a.vue"
    (.file "<template>a</template>".toUTF8)
  let assets := put (put pages [] "assets" .directory) ["assets"] "a" (.file "x".toUTF8)
  let output := put (put assets [] "dist" .directory) ["dist"] "old" (.file "y".toUTF8)
  ⟨output.getD .empty, []⟩

/-- Settings with which the output is emptied. -/
def emptying : BuildSettings := { minify := false, clean := true }

/-- Not every failing build leaves the output as it was: the old file is gone when the asset cannot be
copied over a directory. -/
theorem failed_build_loses_output :
    ¬ ∀ (d : Disk) (settings : BuildSettings) (reloadPort? : Option Nat) (e : BuildError),
        (build d settings reloadPort?).2 = .error e →
        SameBelow (settings.output.place d.here) d.tree (build d settings reloadPort?).1.tree := by
  intro h
  have hfails : (build clashing emptying none).2 = .error (.file ⟨"assets/a"⟩) := by
    decide +kernel
  have hbefore : clashing.tree.get? ["dist", "old"] = some (.file "y".toUTF8) := by decide +kernel
  have hbehind : (build clashing emptying none).1.tree.get? ["dist", "old"] = none := by
    decide +kernel
  have hbelow : Below (emptying.output.place clashing.here) ["dist", "old"] := by
    have hplace : emptying.output.place clashing.here = ["dist"] := by decide +kernel
    rw [hplace]
    exact ⟨⟨["old"], rfl⟩, by decide⟩
  have hsame := h clashing emptying none _ hfails ["dist", "old"] hbelow
  rw [hbefore, hbehind] at hsame
  cases hsame

end Site

end StaticSite
