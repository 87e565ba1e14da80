import Mathlib.Data.List.Basic
import StaticSite.Site.Assets

/-!
# What is written to a disk

All that a build writes it puts, entry by entry, so what is done to a tree is the list of its puts,
the last one first. `Puts.get?` reads the tree off this *log*: at each location stands what was put
there last, or else what stood there before.

Where something is put is known from the text of its path alone: if a path can be followed at all,
it leads to its `place`.
-/

namespace StaticSite

/-! ## Places -/

namespace Path

/-- The location to which a stretch of a path leads, whatever stands there. -/
def lead (l : Location) (segment : String) : Location :=
  if isIdle segment then l else if segment = ".." then l.dropLast else l ++ [segment]

/-- The location to which stretches lead from where a path starts. -/
def placeOf (here : Location) (p : Path) (segments : List String) : Location :=
  segments.foldl lead (if p.isAbsolute then [] else here)

/-- The location that the text of a path names. -/
def place (here : Location) (p : Path) : Location := p.placeOf here p.segments

/-- A location that is passed on the way to the directory of a path. -/
def OnWay (here : Location) (p : Path) (l : Location) : Prop :=
  ∃ dir way, p.parent? = some dir ∧ way <+: dir.segments ∧ l = dir.placeOf here way

theorem lead_of_isFileName {l : Location} {name : String} (h : IsFileName name) :
    lead l name = l ++ [name] := by
  have hidle : isIdle name = false := by simp [isIdle, h.nonempty, h.noDots.1]
  rw [lead, hidle, if_neg Bool.false_ne_true, if_neg h.noDots.2]

end Path

namespace Disk

theorem follow?_eq_some {t : FileTree} {l next : Location} {segment : String}
    (h : follow? t l segment = some next) : t.isDirectory l = true ∧ next = Path.lead l segment := by
  rw [follow?] at h
  rw [Path.lead]
  split at h
  · cases h
  · next hdir =>
    refine ⟨by simpa using hdir, ?_⟩
    split at h
    · next hidle => rw [if_pos hidle, Option.some.inj h]
    · next hidle =>
      rw [if_neg hidle]
      split at h
      · next hup => rw [if_pos hup, Option.some.inj h]
      · next hup =>
        rw [if_neg hup]
        split at h
        · rw [Option.some.inj h]
        · cases h

theorem foldlM_follow? {t : FileTree} {segments : List String} {s l : Location}
    (h : segments.foldlM (follow? t) s = some l) : l = segments.foldl Path.lead s := by
  induction segments generalizing s with
  | nil => exact (Option.some.inj h).symm
  | cons segment segments ih =>
    rw [List.foldlM_cons, Option.bind_eq_bind, Option.bind_eq_some_iff] at h
    obtain ⟨next, hnext, h⟩ := h
    rw [List.foldl_cons, ← (follow?_eq_some hnext).2]
    exact ih h

/-- Stretches can be followed as before where what is passed on the way still is a directory. -/
theorem foldlM_follow?_of_isDirectory {t u : FileTree} {segments : List String} {s l : Location}
    (h : segments.foldlM (follow? t) s = some l)
    (hkept : ∀ way, way <+: segments → way ≠ segments →
      t.isDirectory (way.foldl Path.lead s) = true → u.isDirectory (way.foldl Path.lead s) = true) :
    segments.foldlM (follow? u) s = some l := by
  induction segments generalizing s with
  | nil => exact h
  | cons segment segments ih =>
    rw [List.foldlM_cons, Option.bind_eq_bind, Option.bind_eq_some_iff] at h ⊢
    obtain ⟨next, hnext, h⟩ := h
    obtain ⟨hdir, hlead⟩ := follow?_eq_some hnext
    have hdir' : u.isDirectory s = true := hkept [] List.nil_prefix (List.cons_ne_nil _ _).symm hdir
    refine ⟨next, ?_, ih h fun way hway hne => ?_⟩
    · rw [follow?, hdir] at hnext
      rwa [follow?, hdir']
    · rw [hlead]
      exact hkept (segment :: way) (List.cons_prefix_cons.2 ⟨rfl, hway⟩) (by simpa using hne)

theorem locate?_eq_some {d : Disk} {p : Path} {l : Location} (h : d.locate? p = some l) :
    l = p.place d.here := by
  rw [locate?] at h
  split at h
  · cases h
  · exact foldlM_follow? h

/-- A path leads to the same on two disks that have the same directories on its way. -/
theorem locate?_congr {d e : Disk} {p : Path} (hhere : e.here = d.here)
    (hdir : ∀ way, way <+: p.segments →
      d.tree.isDirectory (p.placeOf d.here way) = e.tree.isDirectory (p.placeOf d.here way)) :
    d.locate? p = e.locate? p := by
  have hstart : e.start p = d.start p := by rw [start, start, hhere]
  rw [locate?, locate?, hstart]
  split
  · rfl
  · refine Option.ext fun l => ⟨fun h => ?_, fun h => ?_⟩
    · exact foldlM_follow?_of_isDirectory h fun way hway _ hk => (hdir way hway).symm.trans hk
    · exact foldlM_follow?_of_isDirectory h fun way hway _ hk => (hdir way hway).trans hk

/-- The path of a directory can be followed to it. -/
theorem isDirectory_iff {d : Disk} {p : Path} : d.isDirectory p = true ↔
    d.locate? p = some (p.place d.here) ∧ d.tree.isDirectory (p.place d.here) = true := by
  rw [isDirectory, decide_eq_true_eq, FileTree.isDirectory, decide_eq_true_eq, entry?,
    Option.bind_eq_some_iff]
  constructor
  · rintro ⟨l, hl, hentry⟩
    obtain rfl := locate?_eq_some hl
    exact ⟨hl, hentry⟩
  · rintro ⟨hl, hentry⟩
    exact ⟨_, hl, hentry⟩

end Disk

/-! ## Logs -/

namespace FileTree

variable {t u v : FileTree} {log log' : List (Location × Entry)}

theorem isFileName_of_put? {dir : Location} {name : String} {entry : Entry}
    (h : t.put? dir name entry = some u) : IsFileName name := by
  rw [put?] at h
  split at h
  · next hput => exact hput.2.1
  · cases h

theorem exists_put? {dir : Location} {name : String} (hdir : t.isDirectory dir = true)
    (hname : IsFileName name) (hfree : t.get? (dir ++ [name]) ≠ some .directory) (entry : Entry) :
    ∃ u, t.put? dir name entry = some u :=
  ⟨_, dif_pos ⟨hdir, hname, hfree⟩⟩

/-- A tree comes from another one by puts, the last one first in their list. -/
inductive Puts (t : FileTree) : List (Location × Entry) → FileTree → Prop where
  | nil : Puts t [] t
  | cons {log : List (Location × Entry)} {u v : FileTree} {dir : Location} {name : String}
      {entry : Entry} (before : Puts t log u) (put : u.put? dir name entry = some v) :
      Puts t ((dir ++ [name], entry) :: log) v

theorem Puts.append (h₁ : Puts t log u) (h₂ : Puts u log' v) : Puts t (log' ++ log) v := by
  induction h₂ with
  | nil => exact h₁
  | cons _ put ih => exact .cons ih put

/-- At each location stands what was put there last, or else what stood there before. -/
theorem Puts.get? (h : Puts t log u) (l : Location) :
    u.get? l = (log.lookup l).or (t.get? l) := by
  induction h with
  | nil => rfl
  | cons _ put ih =>
    rw [get?_put? put, ih, List.lookup_cons]
    split
    · next heq => rw [heq, beq_self_eq_true]; rfl
    · next hne => rw [beq_eq_false_iff_ne.2 hne]

end FileTree

namespace Disk

variable {d d₁ d₂ : Disk} {log log' : List (Location × Entry)}

/-- What was put to come from one disk to another one. -/
structure Wrote (d : Disk) (log : List (Location × Entry)) (d' : Disk) : Prop where
  /-- relative paths still start in the same directory -/
  here_eq : d'.here = d.here
  /-- the tree comes by puts -/
  puts : d.tree.Puts log d'.tree

theorem Wrote.refl (d : Disk) : d.Wrote [] d := ⟨rfl, .nil⟩

theorem Wrote.trans (h₁ : d.Wrote log d₁) (h₂ : d₁.Wrote log' d₂) : d.Wrote (log' ++ log) d₂ :=
  ⟨h₂.here_eq.trans h₁.here_eq, h₁.puts.append h₂.puts⟩

/-! ## Directories and files -/

theorem foldl_makeStep_none (t : FileTree) (segments : List String) :
    segments.foldl makeStep (t, none) = (t, none) := by
  induction segments with
  | nil => rfl
  | cons segment segments ih => exact ih

/-- Making directories along a way puts directories on it, also if it cannot get to the end. -/
theorem foldl_makeStep_puts (segments : List String) (t : FileTree) (l : Location) :
    ∃ log, t.Puts log (segments.foldl makeStep (t, some l)).1 ∧
      ∀ put ∈ log, put.2 = .directory ∧ ∃ way, way <+: segments ∧ put.1 = way.foldl Path.lead l := by
  induction segments generalizing t l with
  | nil => exact ⟨[], .nil, fun _ hput => absurd hput List.not_mem_nil⟩
  | cons segment segments ih =>
    -- where the way ends early, nothing more is put
    have hstop : makeStep (t, some l) segment = (t, none) →
        ∃ log, t.Puts log ((segment :: segments).foldl makeStep (t, some l)).1 ∧
          ∀ put ∈ log, put.2 = .directory ∧
            ∃ way, way <+: segment :: segments ∧ put.1 = way.foldl Path.lead l := by
      intro hstep
      rw [List.foldl_cons, hstep, foldl_makeStep_none]
      exact ⟨[], .nil, fun _ hput => absurd hput List.not_mem_nil⟩
    cases hnext : follow? t l segment with
    | none => exact hstop (by simp only [makeStep, hnext])
    | some next =>
      obtain ⟨-, hlead⟩ := follow?_eq_some hnext
      have hlater : ∀ put : Location × Entry,
          (put.2 = .directory ∧ ∃ way, way <+: segments ∧ put.1 = way.foldl Path.lead next) →
          put.2 = .directory ∧
            ∃ way, way <+: segment :: segments ∧ put.1 = way.foldl Path.lead l := by
        rintro put ⟨hdir, way, hway, hput⟩
        exact ⟨hdir, segment :: way, List.cons_prefix_cons.2 ⟨rfl, hway⟩, by
          rw [hput, List.foldl_cons, ← hlead]⟩
      cases hget : t.get? next with
      | some entry =>
        cases entry with
        | file content => exact hstop (by simp only [makeStep, hnext, hget])
        | directory =>
          obtain ⟨log, hputs, hlog⟩ := ih t next
          have hstep : makeStep (t, some l) segment = (t, some next) := by
            simp only [makeStep, hnext, hget]
          rw [List.foldl_cons, hstep]
          exact ⟨log, hputs, fun put hput => hlater put (hlog put hput)⟩
      | none =>
        cases hput : t.put? l segment .directory with
        | none => exact hstop (by simp only [makeStep, hnext, hget, hput])
        | some t' =>
          obtain ⟨log, hputs, hlog⟩ := ih t' next
          have hstep : makeStep (t, some l) segment = (t', some next) := by
            simp only [makeStep, hnext, hget, hput]
          rw [List.foldl_cons, hstep]
          refine ⟨log ++ [(l ++ [segment], .directory)], (FileTree.Puts.cons .nil hput).append hputs,
            fun put hmem => ?_⟩
          rcases List.mem_append.1 hmem with hmem | hmem
          · exact hlater put (hlog put hmem)
          · obtain rfl := List.mem_singleton.1 hmem
            refine ⟨rfl, [segment], List.cons_prefix_cons.2 ⟨rfl, List.nil_prefix⟩, ?_⟩
            exact (Path.lead_of_isFileName (FileTree.isFileName_of_put? hput)).symm

theorem makeDirectories_wrote (d : Disk) (p : Path) :
    ∃ log, d.Wrote log (d.makeDirectories p).1 ∧
      ∀ put ∈ log, put.2 = .directory ∧
        ∃ way, way <+: p.segments ∧ put.1 = p.placeOf d.here way := by
  rw [makeDirectories]
  split
  · exact ⟨[], .refl d, fun _ hput => absurd hput List.not_mem_nil⟩
  · obtain ⟨log, hputs, hlog⟩ := foldl_makeStep_puts p.segments d.tree (d.start p)
    exact ⟨log, ⟨rfl, hputs⟩, hlog⟩

/-- Writing a file puts it in the directory to which its path leads, or changes nothing. -/
theorem write_put (d : Disk) (p : Path) (content : ByteArray) :
    d.write p content = (d, false) ∨
      ∃ dir name t, d.locate? p = some (dir ++ [name]) ∧
        d.tree.put? dir name (.file content) = some t ∧
        d.write p content = (d.withTree t, true) := by
  rw [write]
  split
  · exact .inl rfl
  · next l hl =>
    split
    · exact .inl rfl
    · next name hname =>
      split
      · next t hput =>
        -- the directory of the place and the last name make up the place
        have hlast : l.dropLast ++ [name] = l := List.dropLast_append_getLast? name hname
        exact .inr ⟨l.dropLast, name, t, by rw [hlast, hl], hput, rfl⟩
      · exact .inl rfl

theorem exists_put?_of_write {d d' : Disk} {p : Path} {content : ByteArray}
    (h : d.write p content = (d', true)) :
    ∃ dir name t, d.locate? p = some (dir ++ [name]) ∧
      d.tree.put? dir name (.file content) = some t ∧ d' = d.withTree t := by
  obtain hfails | ⟨dir, name, t, hl, hput, hwritten⟩ := d.write_put p content
  · rw [hfails] at h
    cases h
  · rw [hwritten] at h
    cases h
    exact ⟨dir, name, t, hl, hput, rfl⟩

/-- So the file is at its place then, and nothing else has changed. -/
theorem write_cases (d : Disk) (p : Path) (content : ByteArray) :
    d.write p content = (d, false) ∨
      ∃ d', d.write p content = (d', true) ∧ d.Wrote [(p.place d.here, .file content)] d' := by
  obtain hfails | ⟨dir, name, t, hl, hput, hwritten⟩ := d.write_put p content
  · exact .inl hfails
  · refine .inr ⟨_, hwritten, rfl, ?_⟩
    rw [← locate?_eq_some hl]
    exact .cons .nil hput

/-- Copying a file puts its content at the place of the target, or nothing onto itself. -/
theorem copy_cases (d : Disk) (source target : Path) :
    d.copy source target = (d, false) ∨
      ∃ d' content, d.copy source target = (d', true) ∧
        (content = ByteArray.empty ∨ d.read? source = some content) ∧
        d.Wrote [(target.place d.here, .file content)] d' := by
  rw [copy]
  split
  · exact .inl rfl
  · next content hread =>
    split
    · obtain h | ⟨d', h, hwrote⟩ := write_cases d target ByteArray.empty
      · exact .inl h
      · exact .inr ⟨d', _, h, .inl rfl, hwrote⟩
    · obtain h | ⟨d', h, hwrote⟩ := write_cases d target content
      · exact .inl h
      · exact .inr ⟨d', _, h, .inr hread, hwrote⟩

end Disk

end StaticSite
