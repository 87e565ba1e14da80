import StaticSite.Command.Run
import StaticSite.Proofs.Starter

/-!
# Building a new site

A new site is laid out with the settings that were found when it was started, and the settings file
that it gets has the default ones. So these are the settings that are found later
(`load_again`), and the site can be built with them only if its files were put where the default
settings look for them. Then they are the starter files and nothing else, and the site is built unless
something stands in place of its output.
-/

namespace StaticSite

open Text Command

variable {d d₁ d₂ : Disk} {s : Settings}

namespace Scaffold

variable {laid more : List (Path × String)} {p : Path} {content : String}

/-! ## What starting a site does -/

theorem written_append (here : Location) (laid more : List (Path × String)) :
    Site.written here (laid ++ more) = Site.written here more ++ Site.written here laid := by
  rw [Site.written, Site.written, Site.written, List.map_append, List.reverse_append]

/-- A disk with some more files, each at the place of its path. -/
structure Laid (d : Disk) (files : List (Path × String)) (d' : Disk) : Prop where
  /-- the files are put, and nothing else but directories -/
  filled : d.Filled (Site.written d.here files) d'
  /-- the paths lead to the files -/
  leads : ∀ file ∈ files, d'.locate? file.1 = some (file.1.place d.here)

theorem Laid.refl (d : Disk) : Laid d [] d := ⟨.refl d, fun _ hfile => absurd hfile List.not_mem_nil⟩

theorem Laid.of_filled (h : d.Filled [] d₁) : Laid d [] d₁ :=
  ⟨h, fun _ hfile => absurd hfile List.not_mem_nil⟩

theorem Laid.trans (h₁ : Laid d laid d₁) (h₂ : Laid d₁ more d₂) : Laid d (laid ++ more) d₂ := by
  have hhere := h₁.filled.here_eq
  have hfilled := h₂.filled
  rw [hhere] at hfilled
  have hboth := h₁.filled.trans hfilled
  rw [← written_append] at hboth
  refine ⟨hboth, fun file hfile => ?_⟩
  rcases List.mem_append.1 hfile with hfile | hfile
  · exact hfilled.locate? (h₁.leads file hfile)
  · rw [← hhere]
    exact h₂.leads file hfile

/-- A step that succeeds has put these files. -/
def Lays (f : Step) (files : List (Path × String)) : Prop :=
  ∀ d d', f d = (d', .ok ()) → Laid d files d'

theorem lays_requireEmpty (dir : Path) : Lays (requireEmpty dir) [] := by
  intro d d' h
  have hd : d' = d := by
    rw [requireEmpty] at h
    split at h
    · cases h
      rfl
    · split at h
      · cases h
        rfl
      · cases h
      · split at h
        · cases h
          rfl
        · cases h
  rw [hd]
  exact .refl d

theorem lays_makeNew (dir : Path) : Lays (makeNew dir) [] := by
  intro d d' h
  have hfilled := Disk.makeDirectories_filled d dir
  rw [makeNew] at h
  split at h
  · cases h
  · rcases hmade : d.makeDirectories dir with ⟨d₁, _ | _⟩
    · rw [hmade] at h
      cases h
    · rw [hmade] at h hfilled
      cases h
      exact .of_filled hfilled

theorem lays_put (p : Path) (content : String) : Lays (put p content) [(p, content)] := by
  intro d d' h
  rw [put] at h
  rcases hwritten : d.write p content.toUTF8 with ⟨d₁, _ | _⟩
  · rw [hwritten] at h
    cases h
  · rw [hwritten] at h
    cases h
    have hputs := Disk.write_puts hwritten
    refine ⟨hputs.filled, fun file hfile => ?_⟩
    rw [List.mem_singleton.1 hfile]
    exact hputs.leads

/-- What stands at a path already is left alone. -/
theorem putNew_cases (h : putNew p content d = (d₁, .ok ())) :
    (d₁ = d ∧ d.pathExists p = true) ∨ Laid d [(p, content)] d₁ := by
  rw [putNew] at h
  split at h
  · next hexists =>
    cases h
    exact .inl ⟨rfl, hexists⟩
  · exact .inr (lays_put p content d d₁ h)

theorem steps_append {fs gs : List Step} (h : steps d (fs ++ gs) = (d₂, .ok ())) :
    ∃ d₁, steps d fs = (d₁, .ok ()) ∧ steps d₁ gs = (d₂, .ok ()) := by
  induction fs generalizing d with
  | nil => exact ⟨_, rfl, h⟩
  | cons f fs ih =>
    rw [List.cons_append, steps] at h
    rw [steps]
    rcases hstep : f d with ⟨d₁, e | _⟩
    · rw [hstep] at h
      cases h
    · rw [hstep] at h
      exact ih h

/-- Steps that succeed have put the files of each. -/
theorem steps_laid {fs : List Step} {puts : List (List (Path × String))}
    (hlays : List.Forall₂ Lays fs puts) (h : steps d fs = (d₁, .ok ())) :
    Laid d puts.flatten d₁ := by
  induction hlays generalizing d with
  | nil =>
    cases h
    exact .refl _
  | @cons f laid fs puts hone _ ih =>
    rw [steps] at h
    rcases hstep : f d with ⟨d₁, e | _⟩
    · rw [hstep] at h
      cases h
    · rw [hstep] at h
      exact (hone d d₁ hstep).trans (ih h)

/-- What keeps the output out of version control is put unless it is there, and it is there then. -/
theorem steps_putNew {root : Path} {names : List String}
    (h : steps d (names.map fun name => putNew (root.child name) content) = (d₁, .ok ())) :
    ∃ kept : List (Path × String), (∀ file ∈ kept, ∃ name ∈ names, file.1 = root.child name) ∧
      Laid d kept d₁ ∧ ∀ name ∈ names, d₁.locate? (root.child name) ≠ none := by
  induction names generalizing d with
  | nil =>
    cases h
    exact ⟨[], fun _ hfile => absurd hfile List.not_mem_nil, .refl _,
      fun _ hname => absurd hname List.not_mem_nil⟩
  | cons name names ih =>
    rw [List.map_cons, steps] at h
    rcases hstep : putNew (root.child name) content d with ⟨d₂, e | _⟩
    · rw [hstep] at h
      cases h
    · rw [hstep] at h
      obtain ⟨kept, hkept, hlaid, hthere⟩ := ih h
      -- whether the file was there or was put, its path leads somewhere
      obtain ⟨first, hfirst, hone, l, hl⟩ : ∃ first : List (Path × String),
          (∀ file ∈ first, file.1 = root.child name) ∧ Laid d first d₂ ∧
            ∃ l, d₂.locate? (root.child name) = some l := by
        rcases putNew_cases hstep with ⟨rfl, hexists⟩ | hlaid
        · refine ⟨[], fun _ hfile => absurd hfile List.not_mem_nil, .refl _, ?_⟩
          obtain ⟨l, hl, -⟩ := Disk.exists_of_pathExists hexists
          exact ⟨l, hl⟩
        · refine ⟨_, fun file hfile => ?_, hlaid, _, hlaid.leads _ (List.mem_singleton_self _)⟩
          rw [List.mem_singleton.1 hfile]
      refine ⟨first ++ kept, fun file hfile => ?_, hone.trans hlaid, fun other hother => ?_⟩
      · rcases List.mem_append.1 hfile with hfile | hfile
        · exact ⟨name, List.mem_cons_self, hfirst file hfile⟩
        · obtain ⟨other, hother, heq⟩ := hkept file hfile
          exact ⟨other, List.mem_cons_of_mem _ hother, heq⟩
      · rcases List.mem_cons.1 hother with rfl | hother
        · rw [hlaid.filled.locate? hl]
          exact Option.some_ne_none _
        · exact hthere other hother

/-- The files of a new site, without those that keep its output out of version control. -/
def files (s : Settings) : List (Path × String) :=
  [(s.build.pages.child ("index." ++ s.build.extension), page),
    (s.build.components.child ("Card." ++ s.build.extension), card),
    (s.build.assets.child "site.css", siteSheet), (s.build.assets.child "card.css", cardSheet),
    (s.file, ({} : Settings).toText)]

/-- **What starting a site has done** when it succeeds: the files of the site are put, with those that
keep its output out of version control, and its root is a directory. -/
theorem run_laid {hasName : Bool} (htext : s.build.root.text ≠ "")
    (h : run d s hasName = (d₁, .ok ())) :
    ∃ kept : List (Path × String),
      (∀ file ∈ kept, ∃ name ∈ ignoreFiles, file.1 = s.build.root.child name) ∧
      Laid d (files s ++ kept) d₁ ∧
      ∃ l, d₁.locate? s.build.root = some l ∧ d₁.tree.isDirectory l = true := by
  rw [run, plan] at h
  obtain ⟨d₂, hfiles, hignore⟩ := steps_append h
  have hempty : List.Forall₂ Lays (if hasName then [] else [requireEmpty s.build.root])
      (if hasName then [] else [[]]) := by
    split
    · exact .nil
    · exact .cons (lays_requireEmpty _) .nil
  have hlays : List.Forall₂ Lays
      ((if hasName then [] else [requireEmpty s.build.root]) ++
        ([makeNew s.build.pages, makeNew s.build.components, makeNew s.build.assets] ++
          (files s).map fun file => put file.1 file.2))
      ((if hasName then [] else [[]]) ++ ([[], [], []] ++ (files s).map fun file => [file])) := by
    refine List.rel_append hempty (List.rel_append ?_ ?_)
    · exact .cons (lays_makeNew _) (.cons (lays_makeNew _) (.cons (lays_makeNew _) .nil))
    · rw [List.forall₂_map_left_iff, List.forall₂_map_right_iff, List.forall₂_same]
      exact fun file _ => lays_put file.1 file.2
  have hputs : ((if hasName then [] else [[]]) ++
      ([[], [], []] ++ (files s).map fun file => [file])).flatten = files s := by
    cases hasName <;> rfl
  have hlaid := steps_laid hlays hfiles
  rw [hputs] at hlaid
  obtain ⟨kept, hkept, hmore, hthere⟩ := steps_putNew hignore
  refine ⟨kept, hkept, hlaid.trans hmore, ?_⟩
  -- what is put below the root can only be reached through it
  obtain ⟨l, hl⟩ := Option.ne_none_iff_exists'.1 (hthere ".gitignore" (by decide))
  exact Disk.locate?_of_child htext (by decide) hl

/-! ## The settings of a new site -/

/-- The settings that a site was started with. -/
structure Started (d : Disk) (s : Settings) : Prop where
  /-- the root is absolute -/
  root : s.build.root.isAbsolute = true
  /-- the settings file lies in the root -/
  file : s.file.place d.here = s.build.root.place d.here ++ ["vela.toml"]

theorem Started.text_ne (h : Started d s) : s.build.root.text ≠ "" := by
  intro htext
  have habsolute := h.root
  rw [Path.isAbsolute, htext] at habsolute
  exact absurd habsolute (by decide)

theorem started_of_settingsFor {i : Invocation} {name? : Option Path}
    (hhere : ∀ name ∈ d.here, IsFileName name) (haction : i.action = .init name?)
    (hconfig : i.config = settingsName) (h : settingsFor d i = .ok s) : Started d s := by
  obtain ⟨t, hload, h⟩ := bind_eq_ok h
  obtain ⟨-, -, h⟩ := bind_eq_ok h
  obtain rfl : t = s := Except.ok.inj h
  obtain ⟨found, -, hload⟩ := bind_eq_ok hload
  obtain rfl : found.withLine d i = t := Except.ok.inj hload
  have hvela : IsFileName "vela.toml" := by decide
  have hfile : (found.withLine d i).file =
      d.normalize ((i.innerRoot found).join settingsName) := by
    rw [Settings.withLine, haction, hconfig]
    rfl
  have hroot : (found.withLine d i).build.root = d.normalize (i.innerRoot found) := by
    rw [Settings.withLine, haction]
    rfl
  refine ⟨?_, ?_⟩
  · rw [hroot]
    exact Disk.isAbsolute_normalize d _
  · rw [hfile, hroot, Disk.place_normalize hhere, Disk.place_normalize hhere]
    exact (Path.place_child d.here _ hvela.plain.1).trans (Path.lead_of_isFileName hvela)

/-- Building the site at a root, as the command line asks for it. -/
def again (root : Path) (minify? : Option Bool) : Invocation :=
  { root? := some root, action := .generate { minify? } }

/-- The settings of a site at a location whose settings file has the default ones. -/
def defaultsAt (l : Location) (minify? : Option Bool) : Settings where
  file := Disk.pathOf (l ++ ["vela.toml"])
  build := Starter.settings l (minify?.getD true)

/-- The settings file of a new site has the default settings. -/
theorem ofText?_toText_default : Settings.ofText? ({} : Settings).toText = some {} := by
  unfold Settings.ofText? Settings.toText BuildSettings.toText ServeSettings.toText
  -- it is read from its pieces, since the characters of a long text are slow to find
  simp only [Toml.assignment, String.toList_append, -String.reduceAppend, -String.reduceToList]
  decide +kernel

/-- The default settings for a site that has a settings file. -/
theorem withLine_again {l : Location} {root : Path} (hroot : d.locate? root = some l)
    (hfile : d.tree.get? (l ++ ["vela.toml"]) ≠ none) (minify? : Option Bool) :
    ({} : Settings).withLine d (again root minify?) = defaultsAt l minify? := by
  obtain ⟨hvela, hdir⟩ := FileTree.get?_concat_ne_none hfile
  have hget := FileTree.get?_ne_none_of_isDirectory hdir
  have hl := (FileTree.get?_append_ne_none (l := []) hget).1
  have hplace {name : String} (hname : IsFileName name) :
      d.normalize ((Disk.pathOf l).join ⟨name⟩) = Disk.pathOf (l ++ [name]) := by
    have hchild : (Disk.pathOf l).join ⟨name⟩ = Disk.pathOf (l ++ [name]) :=
      Disk.pathOf_child hl hname
    rw [hchild]
    exact Disk.normalize_pathOf (List.forall_mem_append.2 ⟨hl, List.forall_mem_singleton.2 hname⟩)
  have hsettings : d.normalize (root.join settingsName) = Disk.pathOf (l ++ ["vela.toml"]) :=
    Disk.normalize_of_locate? (Disk.locate?_child hroot hdir hvela) hfile
  have hrootPath : d.normalize root = Disk.pathOf l := Disk.normalize_of_locate? hroot hget
  have hresolve : ({} : BuildSettings).resolve d root = Starter.settings l true := by
    simp only [BuildSettings.resolve, hrootPath]
    rw [hplace (by decide), hplace (by decide), hplace (by decide), hplace (by decide)]
    rfl
  have hline : ({} : Settings).withLine d (again root minify?) =
      ({ file := d.normalize (root.join settingsName),
         build := ({} : BuildSettings).resolve d root } : Settings).withAction
        (.generate { minify? }) := rfl
  rw [hline, hsettings, hresolve]
  rfl

/-- The settings in a file. -/
theorem read_of_content? {l : Location} {p : Path} {text : String} {t : Settings}
    (hleads : d.locate? p = some l) (hfile : d.tree.content? l = some text.toUTF8)
    (htext : Settings.ofText? text = some t) : Settings.read d p = .ok t := by
  have hread : d.read? p = some text.toUTF8 := by
    rw [Disk.read?_eq, hleads, Option.bind_some, hfile]
  have hreadText : d.readText? p = some text := by
    rw [Disk.readText?, hread, Option.bind_some, fromUTF8?_toUTF8]
  rw [Settings.read, Disk.isFile, hread, hreadText]
  simp only [Option.isSome_some, if_true, htext]

/-- **What is found when a new site is to be built** are the default settings, whatever it was started
with. -/
theorem load_again {l : Location} {root : Path} (hroot : d.locate? root = some l)
    (hfile : d.tree.content? (l ++ ["vela.toml"]) = some ({} : Settings).toText.toUTF8)
    (minify? : Option Bool) :
    Settings.load d (again root minify?) = .ok (defaultsAt l minify?) := by
  have hget := FileTree.get?_ne_none_of_content? hfile
  obtain ⟨hvela, hdir⟩ := FileTree.get?_concat_ne_none hget
  have hleads : d.locate? (root.join settingsName) = some (l ++ ["vela.toml"]) :=
    Disk.locate?_child hroot hdir hvela
  have hfound := read_of_content? hleads hfile ofText?_toText_default
  have houter : (again root minify?).outerRoot.join (again root minify?).config =
      root.join settingsName := rfl
  rw [Settings.load, houter, hfound, ← withLine_again hroot hget minify?]
  rfl

/-- The default settings are refused only if the directory of the pages is missing. -/
theorem check_again {l : Location} (hl : ∀ name ∈ l, IsFileName name) (root : Path)
    (minify? : Option Bool) :
    (defaultsAt l minify?).check d (again root minify?) =
      if d.tree.isDirectory (l ++ ["pages"]) then .ok ()
      else .error (.noPages (Disk.pathOf (l ++ ["pages"]))) := by
  have hpages : ∀ name ∈ l ++ ["pages"], IsFileName name :=
    List.forall_mem_append.2 ⟨hl, List.forall_mem_singleton.2 (by decide)⟩
  have hfilters : (defaultsAt l minify?).build.filters? = some [Pattern.sheetName] :=
    Pattern.filters?_default
  have hextension : ¬ ((defaultsAt l minify?).build.extension = "" ∨
      (defaultsAt l minify?).build.extension.toList.head? = some '.') := by
    have hvue : (defaultsAt l minify?).build.extension = "vue" := rfl
    rw [hvue]
    decide
  have hinit : (again root minify?).isInit = false := rfl
  have hdev : (again root minify?).isDev = false := rfl
  have hplace : (defaultsAt l minify?).build.pages = Disk.pathOf (l ++ ["pages"]) := rfl
  rw [Settings.check, hinit, if_neg Bool.false_ne_true, if_neg hextension, hfilters, hdev, hplace,
    Disk.isDirectory_pathOf hpages]
  cases d.tree.isDirectory (l ++ ["pages"]) <;> simp

/-! ## Building a new site -/

/-- A new site is laid out as the default settings have it, where nothing of it was before. -/
structure Usual (d : Disk) (s : Settings) : Prop where
  /-- components have the default extension -/
  extension : s.build.extension = "vue"
  /-- the pages lie where they usually do -/
  pages : s.build.pages.place d.here = s.build.root.place d.here ++ ["pages"]
  /-- and so do the components -/
  components : s.build.components.place d.here = s.build.root.place d.here ++ ["components"]
  /-- and the assets -/
  assets : s.build.assets.place d.here = s.build.root.place d.here ++ ["assets"]
  /-- none of these directories was there -/
  fresh : ∀ name ∈ ["pages", "components", "assets"],
    d.tree.get? (s.build.root.place d.here ++ [name]) = none

theorem lookup_cons_if {key : Location} {entry : Location × ByteArray}
    {entries : List (Location × ByteArray)} :
    (entry :: entries).lookup key = if entry.1 = key then some entry.2 else entries.lookup key := by
  rw [List.lookup_cons]
  by_cases hkey : entry.1 = key
  · rw [if_pos hkey, hkey, beq_self_eq_true]
  · rw [if_neg hkey, beq_eq_false_iff_ne.2 (Ne.symm hkey)]

section laid

variable {kept : List (Path × String)} {l : Location}

theorem place_child_of {p : Path} {name : String} (h : p.place d.here = l)
    (hname : IsFileName name) : (p.child name).place d.here = l ++ [name] := by
  rw [Path.place_child _ _ hname.plain.1, h, Path.lead_of_isFileName hname]

/-- Away from the files for version control there are the files of the site, or what was before. -/
theorem content?_of_laid (hroot : s.build.root.place d.here = l)
    (hkept : ∀ file ∈ kept, ∃ name ∈ ignoreFiles, file.1 = s.build.root.child name)
    (hlaid : Laid d (files s ++ kept) d₁) {k : Location}
    (hk : ∀ name ∈ ignoreFiles, k ≠ l ++ [name]) :
    d₁.tree.content? k = ((Site.written d.here (files s)).lookup k).or (d.tree.content? k) := by
  have hnone : (Site.written d.here kept).lookup k = none := by
    refine lookup_eq_none.2 fun entry hentry heq => ?_
    obtain ⟨file, hfile, rfl⟩ := List.mem_map.1 (List.mem_reverse.1 hentry)
    obtain ⟨name, hname, hpath⟩ := hkept file hfile
    have hplain : IsFileName name := by
      rcases List.mem_cons.1 hname with rfl | hname
      · decide
      · rw [List.mem_singleton.1 hname]
        decide
    refine hk name hname ?_
    rw [← heq, hpath, place_child_of hroot hplain]
  rw [hlaid.filled.fills.content?, written_append, List.lookup_append, hnone, Option.none_or]

/-- The settings file of a new site stands in its root. -/
theorem content?_settings (hs : Started d s) (hroot : s.build.root.place d.here = l)
    (hkept : ∀ file ∈ kept, ∃ name ∈ ignoreFiles, file.1 = s.build.root.child name)
    (hlaid : Laid d (files s ++ kept) d₁) :
    d₁.tree.content? (l ++ ["vela.toml"]) = some ({} : Settings).toText.toUTF8 := by
  have hfile := hs.file
  rw [hroot] at hfile
  rw [content?_of_laid hroot hkept hlaid (by simp [ignoreFiles])]
  simp [Site.written, files, hfile]

theorem starter_of_laid (h : Usual d s) (hs : Started d s) (hroot : s.build.root.place d.here = l)
    (hkept : ∀ file ∈ kept, ∃ name ∈ ignoreFiles, file.1 = s.build.root.child name)
    (hlaid : Laid d (files s ++ kept) d₁) :
    Starter.At d₁ l := by
  have hlog : Site.written d.here (files s) =
      [(l ++ ["vela.toml"], ({} : Settings).toText.toUTF8),
        (l ++ ["assets"] ++ ["card.css"], cardSheet.toUTF8),
        (l ++ ["assets"] ++ ["site.css"], siteSheet.toUTF8),
        (l ++ ["components"] ++ ["Card.vue"], card.toUTF8),
        (l ++ ["pages"] ++ ["index.vue"], page.toUTF8)] := by
    have hfile := hs.file
    have hpages := h.pages
    have hcomponents := h.components
    have hassets := h.assets
    have hindex : "index." ++ "vue" = "index.vue" := by decide
    have hcard : "Card." ++ "vue" = "Card.vue" := by decide
    rw [hroot] at hfile hpages hcomponents hassets
    rw [Site.written, files, h.extension, hindex, hcard]
    simp only [List.map_cons, List.map_nil, hfile]
    rw [place_child_of hpages (by decide), place_child_of hcomponents (by decide),
      place_child_of hassets (by decide), place_child_of hassets (by decide)]
    rfl
  -- nothing was there before, so a file that is there now has been put
  have hput : ∀ name ∈ ["pages", "components", "assets"], ∀ names,
      d₁.tree.content? (l ++ [name] ++ names) =
        (Site.written d.here (files s)).lookup (l ++ [name] ++ names) := by
    intro name hname names
    have hother : name ∉ ignoreFiles := fun hmem => by
      rcases List.mem_cons.1 hmem with rfl | hmem
      · exact absurd hname (by decide)
      · rw [List.mem_singleton.1 hmem] at hname
        exact absurd hname (by decide)
    have hkey : ∀ other ∈ ignoreFiles, l ++ [name] ++ names ≠ l ++ [other] := by
      intro other hmem heq
      rw [List.append_assoc, List.append_cancel_left_eq, List.singleton_append,
        List.cons.injEq] at heq
      exact hother (heq.1 ▸ hmem)
    rw [content?_of_laid hroot hkept hlaid hkey, FileTree.content?,
      FileTree.get?_below (hroot ▸ h.fresh name hname) names, Option.or_none]
  refine ⟨fun names => ?_, fun names => ?_, fun names => ?_⟩
  · rw [hput "pages" (by simp), hlog]
    simp [lookup_cons_if]
  · rw [hput "components" (by simp), hlog]
    simp [lookup_cons_if]
  · rw [hput "assets" (by simp), hlog]
    simp [lookup_cons_if, Starter.sheets]

end laid

/-- **When a new site can be built.** The settings that are found for it are the default ones, whatever
it was started with, and they are refused if it has no directory of pages where these have it. If it is
laid out as they have it, then it has the starter files, and it is built with its document if and only
if nothing stands in place of its output. The document is smaller by whatever the library makes of it,
if that is switched on. -/
theorem scaffolded_builds {i : Invocation} {name? : Option Path}
    (hhere : ∀ name ∈ d.here, IsFileName name) (haction : i.action = .init name?)
    (hconfig : i.config = settingsName) (hsettings : settingsFor d i = .ok s)
    (hrun : run d s name?.isSome = (d₁, .ok ())) :
    ∃ l, d₁.locate? s.build.root = some l ∧ ∀ root minify? (runtime : Runtime),
      d₁.locate? root = some l →
      Settings.load d₁ (again root minify?) = .ok (defaultsAt l minify?) ∧
      settingsFor d₁ (again root minify?) =
        (if d₁.tree.isDirectory (l ++ ["pages"]) then .ok (defaultsAt l minify?)
        else .error (.noPages (Disk.pathOf (l ++ ["pages"])))) ∧
      (Usual d s → d₁.tree.isDirectory (l ++ ["pages"]) = true ∧
        ((∃ d₂ summary,
            Site.build d₁ (defaultsAt l minify?).build none runtime = (d₂, .ok summary) ∧
            d₂.tree.content? (l ++ ["dist"] ++ ["index.html"]) = some (Starter.document
              (⟨minify?.getD true⟩ : Minifier runtime.library)).toUTF8) ↔
          CanHold d₁ l "dist" Starter.outputs)) := by
  have hstarted := started_of_settingsFor hhere haction hconfig hsettings
  obtain ⟨kept, hkept, hlaid, l, hl, hdir⟩ := run_laid hstarted.text_ne hrun
  have hnames := (FileTree.get?_append_ne_none (l := [])
    (FileTree.get?_ne_none_of_isDirectory hdir)).1
  have hplace : s.build.root.place d.here = l := by
    rw [← hlaid.filled.here_eq]
    exact (Disk.locate?_eq_some hl).symm
  have hfile := content?_settings hstarted hplace hkept hlaid
  refine ⟨l, hl, fun root minify? runtime hroot => ?_⟩
  have hload := load_again hroot hfile minify?
  refine ⟨hload, ?_, fun husual => ?_⟩
  · rw [settingsFor, hload]
    have hcheck := check_again (d := d₁) hnames root minify?
    split at hcheck
    · next hpages =>
      rw [if_pos hpages]
      exact congrArg (· >>= fun _ => pure (defaultsAt l minify?)) hcheck
    · next hpages =>
      rw [if_neg hpages]
      exact congrArg (· >>= fun _ => pure (defaultsAt l minify?)) hcheck
  · have hstarter := starter_of_laid husual hstarted hplace hkept hlaid
    exact ⟨hstarter.pages.isDirectory (List.cons_ne_nil _ _), hstarter.build_iff _ runtime⟩

/-- A disk with nothing but a settings file at its top. -/
def configured (text : String) : Disk :=
  ⟨(FileTree.empty.put? [] "vela.toml" (.file text.toUTF8)).getD .empty, []⟩

/-- Starting a site in a directory of its own. -/
def initBlog : Invocation := { action := .init (some ⟨"blog"⟩) }

/-- The settings that it is started with, where two directories are chosen. -/
def blogSettings (pages output : String) : Settings where
  file := ⟨"/./blog/vela.toml"⟩
  build := {
    root? := some ⟨"/./blog"⟩, pages := ⟨"/./blog/" ++ pages⟩, components := ⟨"/./blog/components"⟩,
    assets := ⟨"/./blog/assets"⟩, output := ⟨"/./blog/" ++ output⟩ }

/-- What is there when the site is started. -/
def startedBlog (text pages output : String) : Disk :=
  (run (configured text) (blogSettings pages output) true).1

theorem run_blog {text pages output : String}
    (hok : (run (configured text) (blogSettings pages output) true).2 = .ok ()) :
    run (configured text) (blogSettings pages output) true =
      (startedBlog text pages output, .ok ()) :=
  Prod.ext rfl hok

theorem here_configured (text : String) : ∀ name ∈ (configured text).here, IsFileName name :=
  fun _ hname => absurd hname List.not_mem_nil

/-- A site that is started with another output directory is built in the default one. Its document is
as it was assembled if it is not to be made smaller. -/
theorem scaffolded_builds_public :
    ∃ d₁ d₂ summary,
      settingsFor (configured "[build]\noutput = \"public\"\n") initBlog =
        .ok (blogSettings "pages" "public") ∧
      run (configured "[build]\noutput = \"public\"\n") (blogSettings "pages" "public") true =
        (d₁, .ok ()) ∧
      settingsFor d₁ (again ⟨"blog"⟩ (some false)) = .ok (defaultsAt ["blog"] (some false)) ∧
      Site.build d₁ (defaultsAt ["blog"] (some false)).build none = (d₂, .ok summary) ∧
      d₂.tree.content? ["blog", "dist", "index.html"] = some (Document.assemble
        ("".intercalate [cardSheet ++ "\n", siteSheet ++ "\n"]) Starter.body none).toUTF8 := by
  let text := "[build]\noutput = \"public\"\n"
  let d₁ := startedBlog text "pages" "public"
  have hsettings : settingsFor (configured text) initBlog = .ok (blogSettings "pages" "public") := by
    decide +kernel
  have hrun : run (configured text) (blogSettings "pages" "public") true = (d₁, .ok ()) :=
    run_blog (by decide +kernel)
  have hroot : d₁.locate? ⟨"/./blog"⟩ = some ["blog"] := by decide +kernel
  have hblog : d₁.locate? ⟨"blog"⟩ = some ["blog"] := by decide +kernel
  have hdist : d₁.tree.get? ["blog", "dist"] = none := by decide +kernel
  have husual : Usual (configured text) (blogSettings "pages" "public") :=
    ⟨rfl, by decide +kernel, by decide +kernel, by decide +kernel, by decide +kernel⟩
  have haction : initBlog.action = .init (some ⟨"blog"⟩) := rfl
  obtain ⟨l, hl, hall⟩ := scaffolded_builds (here_configured text) haction rfl hsettings hrun
  obtain rfl : ["blog"] = l := Option.some.inj (hroot.symm.trans hl)
  obtain ⟨-, hagain, hbuild⟩ := hall ⟨"blog"⟩ (some false) {} hblog
  obtain ⟨hpages, hiff⟩ := hbuild husual
  rw [if_pos hpages] at hagain
  have habove : d₁.tree.isDirectory ["blog"] = true :=
    (FileTree.get?_append_ne_none (FileTree.get?_ne_none_of_isDirectory hpages)).2
      (List.cons_ne_nil _ _)
  obtain ⟨d₂, summary, hbuilt, hcontent⟩ := hiff.2 (.of_none habove hdist)
  exact ⟨d₁, d₂, summary, hsettings, hrun, hagain, hbuilt, hcontent⟩

/-- Not every new site can be built: a settings file that moves the pages is followed when the site is
started, and not when it is built. -/
theorem scaffolded_misses_pages :
    ¬ ∀ (d d₁ : Disk) (i : Invocation) (name? : Option Path) (s : Settings),
        i.action = .init name? → i.config = settingsName → settingsFor d i = .ok s →
        run d s name?.isSome = (d₁, .ok ()) →
        ∃ t d₂ summary, settingsFor d₁ (again s.build.root none) = .ok t ∧
          Site.build d₁ t.build none = (d₂, .ok summary) ∧
          d₂.isFile (t.build.output.child "index.html") = true := by
  intro h
  let text := "[build]\npages = \"content\"\n"
  let d₁ := startedBlog text "content" "dist"
  have hsettings : settingsFor (configured text) initBlog = .ok (blogSettings "content" "dist") := by
    decide +kernel
  have hrun : run (configured text) (blogSettings "content" "dist") true = (d₁, .ok ()) :=
    run_blog (by decide +kernel)
  have hroot : d₁.locate? ⟨"/./blog"⟩ = some ["blog"] := by decide +kernel
  have hpages : d₁.tree.isDirectory (["blog"] ++ ["pages"]) = false := by decide +kernel
  have hplace : (blogSettings "content" "dist").build.root.place (configured text).here =
      ["blog"] := by decide +kernel
  -- of the disk only these facts count
  clear_value d₁
  have haction : initBlog.action = .init (some ⟨"blog"⟩) := rfl
  obtain ⟨t, -, -, hfound, -⟩ := h _ d₁ initBlog _ _ haction rfl hsettings hrun
  have hstarted := started_of_settingsFor (here_configured text) haction rfl hsettings
  obtain ⟨kept, hkept, hlaid, -⟩ := run_laid hstarted.text_ne hrun
  have hfile := content?_settings hstarted hplace hkept hlaid
  -- the settings that are found have no pages
  have hload := load_again hroot hfile none
  have hcheck := check_again (d := d₁) (l := ["blog"]) (by decide) ⟨"/./blog"⟩ none
  rw [hpages, if_neg Bool.false_ne_true] at hcheck
  have hroot' : (blogSettings "content" "dist").build.root = ⟨"/./blog"⟩ := rfl
  rw [settingsFor, hroot', hload] at hfound
  have hrefused := congrArg (· >>= fun _ => pure (defaultsAt ["blog"] none)) hcheck
  cases hrefused.symm.trans hfound

end Scaffold

end StaticSite
