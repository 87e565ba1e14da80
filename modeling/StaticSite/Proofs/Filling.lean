import StaticSite.Proofs.Places
import StaticSite.Site.Pages

/-!
# Files put on a disk

A build puts files on a disk, one after the other, and makes directories for them where nothing
stands. So at the end every file stands where it was put last, whatever else stood there before stays,
and no directory goes (`Fills`). A path that leads somewhere leads there still.
-/

namespace StaticSite

/-- Nothing is looked up where no file was put. -/
theorem lookup_eq_none {files : List (Location × ByteArray)} {l : Location} :
    files.lookup l = none ↔ ∀ file ∈ files, file.1 ≠ l := by
  rw [List.lookup_eq_none_iff]
  exact forall₂_congr fun file _ => bne_iff_ne.trans ne_comm

namespace FileTree

variable {t u v : FileTree} {files files' : List (Location × ByteArray)}

/-- A tree comes from another one by putting files, the last one first in their list, and by making
directories where nothing stands. -/
structure Fills (t : FileTree) (files : List (Location × ByteArray)) (u : FileTree) : Prop where
  /-- every file stands where it was put last -/
  file : ∀ l content, files.lookup l = some content → u.get? l = some (.file content)
  /-- elsewhere nothing changes but that a directory may be made -/
  rest : ∀ l, files.lookup l = none →
    u.get? l = t.get? l ∨ t.get? l = none ∧ u.get? l = some .directory
  /-- no directory goes -/
  directory : ∀ l, t.get? l = some .directory → u.get? l = some .directory

theorem Fills.refl (t : FileTree) : t.Fills [] t :=
  ⟨nofun, fun _ _ => .inl rfl, fun _ h => h⟩

theorem Fills.trans (h₁ : t.Fills files u) (h₂ : u.Fills files' v) : t.Fills (files' ++ files) v := by
  refine ⟨fun l content h => ?_, fun l h => ?_, fun l h => h₂.directory l (h₁.directory l h)⟩
  · rw [List.lookup_append] at h
    rcases hlast : files'.lookup l with _ | last
    · rw [hlast, Option.none_or] at h
      have hfile := h₁.file l content h
      rcases h₂.rest l hlast with heq | ⟨hnone, -⟩
      · rw [heq, hfile]
      · rw [hfile] at hnone
        cases hnone
    · rw [hlast, Option.some_or] at h
      exact h₂.file l content (hlast.trans h)
  · rw [List.lookup_append, Option.or_eq_none_iff] at h
    obtain hsame | ⟨hnone, hmade⟩ := h₁.rest l h.2
    · rw [← hsame]
      exact h₂.rest l h.1
    · exact .inr ⟨hnone, h₂.directory l hmade⟩

/-- What a file holds at the end: what was put there last, or else what it held before. -/
theorem Fills.content? (h : t.Fills files u) (l : Location) :
    u.content? l = (files.lookup l).or (t.content? l) := by
  rcases hlast : files.lookup l with _ | content
  · obtain hsame | ⟨hnone, hmade⟩ := h.rest l hlast
    · rw [Option.none_or, FileTree.content?, FileTree.content?, hsame]
    · rw [Option.none_or, FileTree.content?, FileTree.content?, hnone, hmade]
  · rw [Option.some_or, FileTree.content?, h.file l content hlast]

theorem Fills.isDirectory (h : t.Fills files u) {l : Location} (hl : t.isDirectory l = true) :
    u.isDirectory l = true := by
  rw [FileTree.isDirectory, decide_eq_true_eq] at hl ⊢
  exact h.directory l hl

/-- A file is put where no directory stands. -/
theorem fills_of_put_file {dir : Location} {name : String} {content : ByteArray}
    (h : t.put? dir name (.file content) = some u) : t.Fills [(dir ++ [name], content)] u := by
  have hnot : t.get? (dir ++ [name]) ≠ some .directory := by
    rw [put?] at h
    split at h
    · next hput => exact hput.2.2
    · cases h
  refine ⟨fun l content' hl => ?_, fun l hl => ?_, fun l hl => ?_⟩
  · rw [List.lookup_cons] at hl
    split at hl
    · next heq =>
      rw [get?_put? h, if_pos (eq_of_beq heq), Option.some.inj hl]
    · cases hl
  · rw [List.lookup_cons] at hl
    split at hl
    · cases hl
    · next hne =>
      left
      rw [get?_put? h, if_neg (by simpa using hne)]
  · have hne : l ≠ dir ++ [name] := fun heq => hnot (heq ▸ hl)
    rw [get?_put? h, if_neg hne, hl]

/-- A directory is made where nothing stands. -/
theorem fills_of_put_directory {dir : Location} {name : String}
    (h : t.put? dir name .directory = some u) (hnone : t.get? (dir ++ [name]) = none) :
    t.Fills [] u := by
  have hget := get?_put? h
  refine ⟨nofun, fun l _ => ?_, fun l hl => ?_⟩
  · rw [hget]
    split
    · next heq => exact .inr ⟨heq ▸ hnone, rfl⟩
    · exact .inl rfl
  · rw [hget]
    split
    · rfl
    · exact hl

end FileTree

namespace Disk

open FileTree

variable {d d₁ d₂ : Disk} {files files' : List (Location × ByteArray)} {p : Path} {l : Location}

/-! ## Making directories -/

theorem makeStep_fills (t : FileTree) (l : Location) (segment : String) :
    t.Fills [] (makeStep (t, some l) segment).1 := by
  rw [makeStep]
  rcases hnext : follow? t l segment with _ | next
  · exact .refl t
  · rcases hget : t.get? next with _ | content | _
    · rcases hput : t.put? l segment .directory with _ | u
      · simp only [hget]
        exact .refl t
      · simp only [hget]
        have hlead := (follow?_eq_some hnext).2
        rw [Path.lead_of_isFileName (isFileName_of_put? hput)] at hlead
        exact fills_of_put_directory hput (hlead ▸ hget)
    · simp only [hget]
      exact .refl t
    · simp only [hget]
      exact .refl t

theorem foldl_makeStep_fills (segments : List String) (t : FileTree) (l? : Option Location) :
    t.Fills [] (segments.foldl makeStep (t, l?)).1 := by
  induction segments generalizing t l? with
  | nil => exact .refl t
  | cons segment segments ih =>
    rcases l? with _ | l
    · rw [foldl_makeStep_none]
      exact .refl t
    · exact (makeStep_fills t l segment).trans (ih _ _)

/-! ## Filling a disk -/

/-- A disk comes from another one by putting files, and by making directories for them. -/
structure Filled (d : Disk) (files : List (Location × ByteArray)) (d' : Disk) : Prop where
  /-- relative paths still start in the same directory -/
  here_eq : d'.here = d.here
  /-- the tree is filled -/
  fills : d.tree.Fills files d'.tree

theorem Filled.refl (d : Disk) : d.Filled [] d := ⟨rfl, .refl _⟩

theorem Filled.trans (h₁ : d.Filled files d₁) (h₂ : d₁.Filled files' d₂) :
    d.Filled (files' ++ files) d₂ :=
  ⟨h₂.here_eq.trans h₁.here_eq, h₁.fills.trans h₂.fills⟩

/-- A path that leads somewhere leads there still. -/
theorem Filled.locate? (h : d.Filled files d₁) (hl : d.locate? p = some l) :
    d₁.locate? p = some l := by
  have htext := text_ne_of_locate? hl
  have hstart : d₁.start p = d.start p := by rw [start, start, h.here_eq]
  rw [Disk.locate?, if_neg htext] at hl ⊢
  rw [hstart]
  exact foldlM_follow?_of_isDirectory hl fun _ _ _ hdir => h.fills.isDirectory hdir

theorem makeDirectories_filled (d : Disk) (p : Path) : d.Filled [] (d.makeDirectories p).1 := by
  rw [makeDirectories]
  split
  · exact .refl d
  · exact ⟨rfl, foldl_makeStep_fills _ _ _⟩

/-! ## Putting a file -/

/-- A file is put at a path, which leads to it. -/
structure Puts (d : Disk) (p : Path) (content : ByteArray) (d' : Disk) : Prop where
  /-- the path leads to its place -/
  leads : d'.locate? p = some (p.place d.here)
  /-- the file is put there -/
  filled : d.Filled [(p.place d.here, content)] d'

theorem write_puts {content : ByteArray} (h : d.write p content = (d₁, true)) :
    d.Puts p content d₁ := by
  obtain ⟨dir, name, t, hl, hput, rfl⟩ := exists_put?_of_write h
  have hplace := locate?_eq_some hl
  have hfilled : d.Filled [(p.place d.here, content)] (d.withTree t) := by
    refine ⟨rfl, ?_⟩
    rw [← hplace]
    exact fills_of_put_file hput
  exact ⟨hplace ▸ hfilled.locate? hl, hfilled⟩

end Disk

open Disk

theorem makeParent_filled (d : Disk) (p : Path) : d.Filled [] (makeParent d p).1 := by
  rw [makeParent]
  split
  · exact .refl d
  · next dir _ =>
    have hfilled := makeDirectories_filled d dir
    rcases hmade : d.makeDirectories dir with ⟨d₁, _ | _⟩
    · rwa [hmade] at hfilled
    · rwa [hmade] at hfilled

/-- How a file is written matters only behind its directory. -/
theorem putFile_congr {d : Disk} {p reported : Path} {write write' : Disk → Disk × Bool}
    (h : ∀ d₁, d.Filled [] d₁ → write d₁ = write' d₁) :
    putFile d p write reported = putFile d p write' reported := by
  have hparent := makeParent_filled d p
  rw [putFile, putFile]
  rcases hmade : makeParent d p with ⟨d₁, e | _⟩
  · rfl
  · rw [hmade] at hparent
    simp only [h d₁ hparent]

/-- Puts a file with this content at a path. -/
def putContent (p reported : Path) (content : ByteArray) (d : Disk) :
    Disk × Except BuildError Unit :=
  putFile d p (fun d => d.write p content) reported

/-- A file that is written behind its directory is put. -/
theorem putContent_puts {d d' : Disk} {p reported : Path} {content : ByteArray}
    (h : putContent p reported content d = (d', .ok ())) : d.Puts p content d' := by
  have hparent := makeParent_filled d p
  rw [putContent, putFile] at h
  rcases hmade : makeParent d p with ⟨d₁, e | _⟩
  · rw [hmade] at h
    cases h
  · rw [hmade] at h hparent
    rcases hwritten : d₁.write p content with ⟨d₂, _ | _⟩
    · simp only [hwritten] at h
      cases h
    · simp only [hwritten] at h
      cases h
      have hputs := write_puts hwritten
      have hhere := hparent.here_eq
      refine ⟨hhere ▸ hputs.leads, ?_⟩
      have hfilled := hparent.trans hputs.filled
      rwa [hhere] at hfilled

/-! ## Putting files -/

section

variable {α : Type} {f g : Disk → α → Disk × Except BuildError Unit} {good : Disk → Prop}
  {target reported : α → Path} {bytes : α → ByteArray} {late : Nat} {d z : Disk} {xs : List α}

/-- What goes on from good disks to good disks succeeds with all items of a list. -/
theorem forEach_ok
    (hf : ∀ x ∈ xs, ∀ d, good d → ∃ d', f d x = (d', .ok ()) ∧ good d')
    (hgood : good d) : ∃ d', forEach f late d xs = (d', .ok ()) ∧ good d' := by
  induction xs generalizing d with
  | nil => exact ⟨d, rfl, hgood⟩
  | cons x xs ih =>
    obtain ⟨d₁, hstep, hgood₁⟩ := hf x List.mem_cons_self d hgood
    rw [forEach, hstep]
    exact ih (fun y hy => hf y (List.mem_cons_of_mem _ hy)) hgood₁

/-- Loops that do the same on good disks come to the same end, if they come to their end. -/
theorem forEach_eq_ok_congr (hgood : good d)
    (hsame : ∀ x ∈ xs, ∀ d, good d → f d x = g d x)
    (hstep : ∀ x ∈ xs, ∀ d d', good d → g d x = (d', .ok ()) → good d') :
    forEach f late d xs = (z, .ok ()) ↔ forEach g late d xs = (z, .ok ()) := by
  induction xs generalizing d with
  | nil => exact Iff.rfl
  | cons x xs ih =>
    rw [forEach, forEach, hsame x List.mem_cons_self d hgood]
    rcases hdone : g d x with ⟨d₁, e | _⟩
    · simp
    · exact ih (hstep x List.mem_cons_self d d₁ hgood hdone)
        (fun y hy => hsame y (List.mem_cons_of_mem _ hy))
        fun y hy => hstep y (List.mem_cons_of_mem _ hy)

/-- A loop that puts a file for each item. -/
def putAll (target reported : α → Path) (bytes : α → ByteArray) (late : Nat) (d : Disk)
    (xs : List α) : Disk × Except BuildError Unit :=
  forEach (fun d x => putContent (target x) (reported x) (bytes x) d) late d xs

/-- It fills a disk with all of them. -/
theorem putAll_filled (h : putAll target reported bytes late d xs = (z, .ok ())) :
    d.Filled (xs.map fun x => ((target x).place d.here, bytes x)).reverse z ∧
      ∀ x ∈ xs, z.locate? (target x) = some ((target x).place d.here) := by
  induction xs generalizing d with
  | nil =>
    cases h
    exact ⟨.refl _, fun _ hx => absurd hx List.not_mem_nil⟩
  | cons x xs ih =>
    rw [putAll, forEach] at h
    rcases hstep : putContent (target x) (reported x) (bytes x) d with ⟨d₁, e | _⟩
    · rw [hstep] at h
      cases h
    · rw [hstep] at h
      have hputs := putContent_puts hstep
      obtain ⟨hfilled, hleads⟩ := ih h
      rw [hputs.filled.here_eq] at hfilled hleads
      refine ⟨?_, fun y hy => ?_⟩
      · rw [List.map_cons, List.reverse_cons]
        exact hputs.filled.trans hfilled
      · rcases List.mem_cons.1 hy with rfl | hy
        · exact hfilled.locate? hputs.leads
        · exact hleads y hy

end

end StaticSite
