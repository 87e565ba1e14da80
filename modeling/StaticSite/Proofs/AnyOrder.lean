import StaticSite.Proofs.Filling
import StaticSite.Proofs.Parents

/-!
# Writing in any order

What can be written file by file in one order can be written in any other one, and what stands where in
the end is the same, up to what is in a file that several of them have the place of
(`forEach_any_order`). If one order comes to its end, then all that it has put is part of the tree in
the end, so no file stands in the way of another one. And a tree that has only such parts (`Within`)
has nothing in the way of a file either, whatever else of them it has by then.
-/

namespace StaticSite

/-! ## Trees that are part of another one -/

/-- Whether an entry is a directory. -/
def Entry.isDirectory : Entry → Bool
  | .directory => true
  | .file _ => false

namespace FileTree

variable {t t' u v z : FileTree} {l next : Location} {segment : String} {kind : Bool}
  {files : List (Location × ByteArray)}

/-- Whether a directory or a file stands at a location. -/
def kind? (t : FileTree) (l : Location) : Option Bool := (t.get? l).map Entry.isDirectory

theorem kind?_eq_some_true : t.kind? l = some true ↔ t.isDirectory l = true := by
  rw [kind?, isDirectory, decide_eq_true_eq, Option.map_eq_some_iff]
  constructor
  · rintro ⟨entry, hentry, hkind⟩
    cases entry with
    | file content => cases hkind
    | directory => exact hentry
  · exact fun h => ⟨_, h, rfl⟩

theorem kind?_eq_some_false : t.kind? l = some false ↔ t.content? l ≠ none := by
  rw [kind?, content?]
  rcases t.get? l with _ | content | _
  · simp
  · simp [Entry.isDirectory]
  · simp [Entry.isDirectory]

/-- What stands in one tree stands in the other one, whatever its files hold. -/
def Within (t z : FileTree) : Prop := ∀ l kind, t.kind? l = some kind → z.kind? l = some kind

theorem Within.trans (h₁ : t.Within u) (h₂ : u.Within v) : t.Within v :=
  fun l kind h => h₂ l kind (h₁ l kind h)

theorem Within.kind?_eq (h₁ : t.Within u) (h₂ : u.Within t) (l : Location) :
    t.kind? l = u.kind? l :=
  Option.ext fun kind => ⟨h₁ l kind, h₂ l kind⟩

theorem Within.isDirectory (h : t.Within u) (hl : t.isDirectory l = true) :
    u.isDirectory l = true :=
  kind?_eq_some_true.1 (h l _ (kind?_eq_some_true.2 hl))

/-- What is filled has all that was there. -/
theorem Fills.within (h : t.Fills files u) : t.Within u := by
  intro l kind hkind
  rcases kind with _ | _
  · rw [kind?_eq_some_false] at hkind ⊢
    rw [h.content?, Ne, Option.or_eq_none_iff]
    exact fun hnone => hkind hnone.2
  · exact kind?_eq_some_true.2 (h.isDirectory (kind?_eq_some_true.1 hkind))

/-- Where two trees have the same files and directories, they only differ in what files hold. -/
theorem get?_eq_of_kind? (hkind : t.kind? l = u.kind? l) (hcontent : t.content? l = u.content? l) :
    t.get? l = u.get? l := by
  rw [kind?, kind?] at hkind
  rw [content?, content?] at hcontent
  rcases ht : t.get? l with _ | content | _ <;> rcases hu : u.get? l with _ | content' | _ <;>
    simp_all [Entry.isDirectory]

/-- Two trees with the same files and directories, where the files have the same content but for some. -/
def SameBut (except : Location → Prop) (t u : FileTree) : Prop :=
  ∀ l, t.kind? l = u.kind? l ∧ (¬ except l → t.content? l = u.content? l)

theorem SameBut.get?_eq {except : Location → Prop} (h : t.SameBut except u) (hl : ¬ except l) :
    t.get? l = u.get? l :=
  get?_eq_of_kind? (h l).1 ((h l).2 hl)

/-- A walk goes by the kinds of entries. -/
theorem filesAt_eq_of_kind? (h : ∀ l, t.kind? l = u.kind? l) (l : Location) :
    t.filesAt l = u.filesAt l := by
  have hkinds : t.entries.map (fun _ => Entry.isDirectory) =
      u.entries.map (fun _ => Entry.isDirectory) := by
    refine Std.ExtTreeMap.ext_getElem? fun k => ?_
    rw [Std.ExtTreeMap.getElem?_map, Std.ExtTreeMap.getElem?_map]
    by_cases hk : k = []
    · rw [hk, t.wellformed.top, u.wellformed.top]
    · have hkind := h k
      rwa [kind?, kind?, get?, get?, if_neg hk, if_neg hk] at hkind
  have hwalk : ∀ v : FileTree, v.filesAt l =
      (v.entries.map fun _ => Entry.isDirectory).toList.filterMap fun (key, isDirectory) =>
        if isDirectory then none else if l.isPrefixOf key then some key else none := by
    intro v
    rw [filesAt, Std.ExtTreeMap.toList_map, List.filterMap_map]
    refine List.filterMap_congr fun entry _ => ?_
    obtain ⟨key, content | _⟩ := entry
    · rfl
    · rfl
  rw [hwalk, hwalk, hkinds]

theorem isDirectory_above {k : Location} (hdir : t.isDirectory k = true) (hl : l <+: k) :
    t.isDirectory l = true := by
  obtain ⟨rest, rfl⟩ := hl
  by_cases hrest : rest = []
  · rwa [hrest, List.append_nil] at hdir
  · exact (get?_append_ne_none (get?_ne_none_of_isDirectory hdir)).2 hrest

end FileTree

namespace Disk

open FileTree

variable {d d' e : Disk} {t t' u z : FileTree} {p : Path} {l next : Location} {segment : String}
  {content : ByteArray}

/-! ## The same steps on a part -/

/-- Stretches can be followed if there is a directory wherever they lead. -/
theorem foldlM_follow?_of_directories {segments : List String}
    (h : ∀ way, way <+: segments → t.isDirectory (way.foldl Path.lead l) = true) :
    segments.foldlM (follow? t) l = some (segments.foldl Path.lead l) := by
  induction segments generalizing l with
  | nil => rfl
  | cons segment segments ih =>
    have hdir : t.isDirectory l = true := h [] List.nil_prefix
    have hlead : t.isDirectory (Path.lead l segment) = true :=
      h [segment] (List.cons_prefix_cons.2 ⟨rfl, List.nil_prefix⟩)
    have hnext : follow? t l segment = some (Path.lead l segment) := by
      rw [follow?, hdir, Bool.not_true, if_neg Bool.false_ne_true]
      by_cases hidle : Path.isIdle segment = true
      · rw [if_pos hidle, Path.lead, if_pos hidle]
      · by_cases hup : segment = ".."
        · rw [if_neg hidle, if_pos hup, Path.lead, if_neg hidle, if_pos hup]
        · rw [Path.lead, if_neg hidle, if_neg hup] at hlead ⊢
          have hname := (get?_concat_ne_none (get?_ne_none_of_isDirectory hlead)).1
          rw [if_neg hidle, if_neg hup, if_pos hname]
    rw [List.foldlM_cons, hnext]
    exact ih fun way hway => h (segment :: way) (List.cons_prefix_cons.2 ⟨rfl, hway⟩)

/-- Paths lead to the same locations where the same directories are. -/
theorem locate?_eq_of_kind? (hhere : e.here = d.here) (h : ∀ l, d.tree.kind? l = e.tree.kind? l)
    (p : Path) : d.locate? p = e.locate? p := by
  refine locate?_congr hhere fun way _ => ?_
  rw [Bool.eq_iff_iff, ← kind?_eq_some_true, ← kind?_eq_some_true, h]

theorem filesUnder_eq_of_kind? (hhere : e.here = d.here)
    (h : ∀ l, d.tree.kind? l = e.tree.kind? l) (p : Path) : d.filesUnder p = e.filesUnder p := by
  rw [filesUnder, filesUnder, locate?_eq_of_kind? hhere h]
  rcases e.locate? p with _ | l
  · rfl
  · simp only [filesAt_eq_of_kind? h]

/-- A stretch that can be followed leads to where one was already, or is a name. -/
theorem follow?_cases (h : follow? t l segment = some next) :
    next <+: l ∨ IsFileName segment ∧ next = l ++ [segment] := by
  rw [follow?] at h
  split at h
  · cases h
  · split at h
    · exact .inl (Option.some.inj h ▸ List.prefix_rfl)
    · split at h
      · exact .inl (Option.some.inj h ▸ List.dropLast_prefix l)
      · split at h
        · next hname => exact .inr ⟨hname, (Option.some.inj h).symm⟩
        · cases h

/-- Where a stretch has led there is a directory. -/
theorem isDirectory_of_makeStep (h : makeStep (t, some l) segment = (t', some next)) :
    t'.isDirectory next = true ∧ follow? t l segment = some next := by
  rw [makeStep] at h
  rcases hnext : follow? t l segment with _ | next'
  · simp [hnext] at h
  · rcases hget : t.get? next' with _ | content | _
    · rcases hput : t.put? l segment .directory with _ | u
      · simp [hnext, hget, hput] at h
      · simp only [hnext, hget, hput, Prod.mk.injEq, Option.some.injEq] at h
        obtain ⟨rfl, rfl⟩ := h
        have hlead := (follow?_eq_some hnext).2
        rw [Path.lead_of_isFileName (isFileName_of_put? hput)] at hlead
        refine ⟨?_, rfl⟩
        rw [FileTree.isDirectory, get?_put? hput, if_pos hlead]
        rfl
    · simp [hnext, hget] at h
    · simp only [hnext, hget, Prod.mk.injEq, Option.some.injEq] at h
      obtain ⟨rfl, rfl⟩ := h
      exact ⟨decide_eq_true hget, rfl⟩

/-- A stretch leads to the same directory if there is nothing but a part of the same tree. -/
theorem makeStep_within (h : makeStep (t, some l) segment = (t', some next)) (ht : t'.Within z)
    (hu : u.Within z) (hl : u.isDirectory l = true) :
    ∃ u', makeStep (u, some l) segment = (u', some next) ∧ u'.Within z ∧
      u'.isDirectory next = true := by
  obtain ⟨hdir, hnext⟩ := isDirectory_of_makeStep h
  have hz := ht.isDirectory hdir
  have hnext' : follow? u l segment = some next := by
    have hdir' := (follow?_eq_some hnext).1
    rw [follow?, hdir'] at hnext
    rwa [follow?, hl]
  rcases hget : u.get? next with _ | content | _
  · -- nothing stands there, so it is a name, and the directory can be made
    obtain hback | ⟨hname, rfl⟩ := follow?_cases hnext'
    · exact absurd hget (get?_ne_none_of_isDirectory (isDirectory_above hl hback))
    · obtain ⟨u', hput⟩ := exists_put? hl hname (by simp [hget]) .directory
      have hu' := get?_put? hput
      refine ⟨u', by simp only [makeStep, hnext', hget, hput], fun k kind hkind => ?_, ?_⟩
      · rw [kind?, hu'] at hkind
        split at hkind
        · next hk =>
          cases hkind
          rw [hk]
          exact kind?_eq_some_true.2 hz
        · exact hu k kind hkind
      · rw [FileTree.isDirectory, hu', if_pos rfl]
        rfl
  · -- a file there would be one of the whole
    have hfile := hu next false (by rw [kind?, hget]; rfl)
    rw [kind?_eq_some_true.2 hz] at hfile
    cases hfile
  · exact ⟨u, by simp only [makeStep, hnext', hget], hu, decide_eq_true hget⟩

theorem foldl_makeStep_within {segments : List String}
    (h : segments.foldl makeStep (t, some l) = (t', some next)) (ht : t'.Within z)
    (hu : u.Within z) (hl : u.isDirectory l = true) :
    ∃ u', segments.foldl makeStep (u, some l) = (u', some next) ∧ u'.Within z ∧
      ∀ way, way <+: segments → u'.isDirectory (way.foldl Path.lead l) = true := by
  induction segments generalizing t u l with
  | nil =>
    cases h
    refine ⟨u, rfl, hu, fun way hway => ?_⟩
    rw [List.prefix_nil.1 hway]
    exact hl
  | cons segment segments ih =>
    rw [List.foldl_cons] at h
    rcases hstep : makeStep (t, some l) segment with ⟨t₁, _ | l₁⟩
    · rw [hstep, foldl_makeStep_none] at h
      cases h
    · rw [hstep] at h
      have ht₁ := (foldl_makeStep_fills segments t₁ (some l₁)).within
      rw [h] at ht₁
      obtain ⟨u₁, hstep', hu₁, hl₁⟩ := makeStep_within hstep (ht₁.trans ht) hu hl
      obtain ⟨u', hrest, hu', hways⟩ := ih h hu₁ hl₁
      refine ⟨u', by rw [List.foldl_cons, hstep', hrest], hu', fun way hway => ?_⟩
      rcases way with _ | ⟨first, way⟩
      · have hfills := foldl_makeStep_fills (segment :: segments) u (some l)
        rw [List.foldl_cons, hstep', hrest] at hfills
        exact hfills.isDirectory hl
      · obtain ⟨rfl, hbehind⟩ := List.cons_prefix_cons.1 hway
        have hlead := (follow?_eq_some (isDirectory_of_makeStep hstep).2).2
        rw [List.foldl_cons, ← hlead]
        exact hways way hbehind

theorem makeDirectories_within (h : d.makeDirectories p = (d', true)) (hhere : e.here = d.here)
    (hd : d'.tree.Within z) (he : e.tree.Within z)
    (hstart : e.tree.isDirectory (e.start p) = true) :
    ∃ e', e.makeDirectories p = (e', true) ∧ e'.tree.Within z ∧
      ∀ way, way <+: p.segments → e'.tree.isDirectory (p.placeOf e.here way) = true := by
  rw [makeDirectories] at h ⊢
  by_cases htext : p.text = ""
  · rw [if_pos htext]
    refine ⟨e, rfl, he, fun way hway => ?_⟩
    rw [Path.segments_of_text htext] at hway
    have hplace : p.placeOf e.here way = e.start p := by
      obtain heq | ⟨rest, rfl, hrest⟩ := List.prefix_cons_iff.1 hway
      · rw [heq]
        rfl
      · rw [List.prefix_nil.1 hrest]
        rfl
    rw [hplace]
    exact hstart
  · rw [if_neg htext] at h ⊢
    have hsame : e.start p = d.start p := by rw [start, start, hhere]
    rcases hrun : p.segments.foldl makeStep (d.tree, some (d.start p)) with ⟨t, _ | k⟩
    · simp only [hrun] at h
      cases h
    · simp only [hrun] at h
      cases h
      obtain ⟨u, hrun', hu, hways⟩ := foldl_makeStep_within hrun hd he (hsame ▸ hstart)
      rw [hsame, hrun']
      refine ⟨_, rfl, hu, fun way hway => ?_⟩
      have hplace : p.placeOf e.here way = way.foldl Path.lead (d.start p) := by
        rw [← hsame]
        rfl
      rw [hplace]
      exact hways way hway

/-- A file that can be written has a name for its last stretch. -/
theorem write_eq_true (h : d.write p content = (d', true)) :
    ∃ init name t, p.segments = init ++ [name] ∧ IsFileName name ∧
      init.foldlM (follow? d.tree) (d.start p) = some (init.foldl Path.lead (d.start p)) ∧
      d.tree.put? (init.foldl Path.lead (d.start p)) name (.file content) = some t ∧
      d' = d.withTree t := by
  obtain ⟨dir, last, t, hl, hput, rfl⟩ := exists_put?_of_write h
  have htext := text_ne_of_locate? hl
  obtain ⟨init, name, hsegments⟩ := List.eq_nil_or_concat p.segments |>.resolve_left
    p.segments_ne_nil
  rw [List.concat_eq_append] at hsegments
  rw [locate?, if_neg htext, hsegments, List.foldlM_append, Option.bind_eq_bind,
    Option.bind_eq_some_iff] at hl
  obtain ⟨k, hk, hlast⟩ := hl
  have hplace := foldlM_follow? hk
  have hlast' : follow? d.tree k name = some (dir ++ [last]) := by simpa using hlast
  obtain hback | ⟨hname, heq⟩ := follow?_cases hlast'
  · -- a directory stands there
    have hdir := isDirectory_above (follow?_eq_some hlast').1 hback
    rw [put?] at hput
    split at hput
    · next hfree =>
      rw [FileTree.isDirectory, decide_eq_true_eq] at hdir
      exact absurd hdir hfree.2.2
    · cases hput
  · obtain ⟨rfl, hsame⟩ := List.append_inj' heq rfl
    obtain rfl := List.singleton_inj.1 hsame
    rw [hplace] at hk hput
    exact ⟨init, last, t, hsegments, hname, hk, hput, rfl⟩

/-- A file can be written where the way to it is there and nothing but a part of a tree in which it can
be. -/
theorem write_within {init : List String} {name : String} (h : d.write p content = (d', true))
    (hsegments : p.segments = init ++ [name]) (hhere : e.here = d.here) (hd : d'.tree.Within z)
    (he : e.tree.Within z)
    (hways : ∀ way, way <+: init → e.tree.isDirectory (p.placeOf e.here way) = true)
    (content' : ByteArray) : ∃ e', e.write p content' = (e', true) ∧ e'.tree.Within z := by
  obtain ⟨init', name', t, hsegments', hname, -, hput, rfl⟩ := write_eq_true h
  obtain ⟨rfl, hlast⟩ := List.append_inj' (hsegments.symm.trans hsegments') rfl
  obtain rfl := List.singleton_inj.1 hlast
  have hstart : d.start p = e.start p := by rw [start, start, hhere]
  rw [hstart] at hput
  have hfile : z.kind? (init.foldl Path.lead (e.start p) ++ [name]) = some false := by
    refine hd _ _ ?_
    rw [kind?_eq_some_false, withTree, content?, get?_put? hput, if_pos rfl]
    exact Option.some_ne_none _
  have hdir : e.tree.isDirectory (init.foldl Path.lead (e.start p)) = true :=
    hways init List.prefix_rfl
  have hfollow : init.foldlM (follow? e.tree) (e.start p) =
      some (init.foldl Path.lead (e.start p)) := foldlM_follow?_of_directories hways
  have htext := Path.text_ne_of_segments hsegments hname.nonempty
  have hlocate : e.locate? p = some (init.foldl Path.lead (e.start p) ++ [name]) := by
    have hidle := Path.isIdle_of_isFileName hname
    rw [locate?, if_neg htext, hsegments, List.foldlM_append, hfollow]
    simp [follow?, hdir, hidle, hname, hname.noDots.2]
  have hfree : e.tree.get? (init.foldl Path.lead (e.start p) ++ [name]) ≠ some .directory := by
    intro hget
    have hkind := he _ true (kind?_eq_some_true.2 (decide_eq_true hget))
    rw [hfile] at hkind
    cases hkind
  obtain ⟨u, hput'⟩ := exists_put? hdir hname hfree (.file content')
  refine ⟨e.withTree u, ?_, fun k kind hkind => ?_⟩
  · rw [write, hlocate]
    simp only [List.getLast?_concat, List.dropLast_concat, hput']
  · rw [withTree, kind?, get?_put? hput'] at hkind
    split at hkind
    · next hk =>
      cases hkind
      rw [hk, hfile]
      rfl
    · exact he k kind hkind

end Disk

open Disk FileTree

/-! ## The same files on a part -/

section

variable {d d' e z : Disk} {p reported : Path} {content : ByteArray}

/-- What is done to put a file: its directory is made, and then it is written. -/
theorem putContent_eq_ok (h : putContent p reported content d = (d', .ok ())) :
    ∃ dir d₁ init name, p.parent? = some dir ∧ dir.isAbsolute = p.isAbsolute ∧
      d.makeDirectories dir = (d₁, true) ∧ d₁.write p content = (d', true) ∧
      p.segments = init ++ [name] ∧ ∀ way, way <+: init → ∃ way', way' <+: dir.segments ∧
        ∀ here, p.placeOf here way = dir.placeOf here way' := by
  rw [putContent, putFile] at h
  rcases hmade : makeParent d p with ⟨d₁, e | _⟩
  · simp only [hmade] at h
    cases h
  · simp only [hmade] at h
    rcases hwritten : d₁.write p content with ⟨d₂, _ | _⟩
    · simp only [hwritten] at h
      cases h
    · simp only [hwritten] at h
      cases h
      obtain ⟨init, name, -, hsegments, hname, -⟩ := write_eq_true hwritten
      obtain ⟨dir, hdir, habsolute, hways⟩ :=
        Path.exists_way_of_segments hsegments (Path.isIdle_of_isFileName hname)
      rw [makeParent, hdir] at hmade
      rcases hdirs : d.makeDirectories dir with ⟨d₃, _ | _⟩
      · simp only [hdirs] at hmade
        cases hmade
      · simp only [hdirs] at hmade
        cases hmade
        exact ⟨dir, d₁, init, name, hdir, habsolute, hdirs, hwritten, hsegments, hways⟩

/-- Relative paths start in a directory where a file could be put. -/
theorem isDirectory_start_of_putContent (h : putContent p reported content d = (d', .ok ())) :
    d.tree.isDirectory (d.start p) = true := by
  obtain ⟨dir, d₁, init, name, -, habsolute, hmade, hwritten, -, -⟩ := putContent_eq_ok h
  have hstart : d.start dir = d.start p := by rw [start, start, habsolute]
  rw [makeDirectories] at hmade
  by_cases htext : dir.text = ""
  · rw [if_pos htext] at hmade
    cases hmade
    obtain ⟨init, name, t, -, -, hfollow, hput, -⟩ := write_eq_true hwritten
    rcases init with _ | ⟨first, init⟩
    · rw [put?] at hput
      split at hput
      · next hfree => exact hfree.1
      · cases hput
    · rw [List.foldlM_cons, Option.bind_eq_bind, Option.bind_eq_some_iff] at hfollow
      obtain ⟨next, hnext, -⟩ := hfollow
      exact (follow?_eq_some hnext).1
  · obtain ⟨first, rest, hsegments⟩ := List.exists_cons_of_ne_nil dir.segments_ne_nil
    rw [if_neg htext, hsegments, List.foldl_cons] at hmade
    rcases hstep : makeStep (d.tree, some (d.start dir)) first with ⟨t, _ | l⟩
    · rw [hstep, foldl_makeStep_none] at hmade
      cases hmade
    · rw [← hstart]
      exact (follow?_eq_some (isDirectory_of_makeStep hstep).2).1

/-- **A file can be put wherever there is only a part of a tree in which it could be put.** -/
theorem putContent_within (h : putContent p reported content d = (d', .ok ()))
    (hhere : e.here = d.here) (hd : d'.tree.Within z.tree) (he : e.tree.Within z.tree)
    (hstart : e.tree.isDirectory (e.start p) = true) (content' : ByteArray) :
    ∃ e', putContent p reported content' e = (e', .ok ()) ∧ e'.tree.Within z.tree := by
  obtain ⟨dir, d₁, init, name, hdir, habsolute, hmade, hwritten, hsegments, hways⟩ :=
    putContent_eq_ok h
  have hd₁ : d₁.tree.Within z.tree := (write_puts hwritten).filled.fills.within.trans hd
  have hhere₁ : d₁.here = d.here := by
    have hfilled := makeDirectories_filled d dir
    rw [hmade] at hfilled
    exact hfilled.here_eq
  have hstart' : e.tree.isDirectory (e.start dir) = true := by
    rwa [start, habsolute]
  obtain ⟨e₁, hmade', he₁, hways₁⟩ := makeDirectories_within hmade hhere hd₁ he hstart'
  have hhere₂ : e₁.here = e.here := by
    have hfilled := makeDirectories_filled e dir
    rw [hmade'] at hfilled
    exact hfilled.here_eq
  have hdirectories : ∀ way, way <+: init → e₁.tree.isDirectory (p.placeOf e₁.here way) = true := by
    intro way hway
    obtain ⟨way', hway', hplace⟩ := hways way hway
    rw [hplace, hhere₂]
    exact hways₁ way' hway'
  obtain ⟨e₂, hwritten', he₂⟩ := write_within hwritten hsegments
    (hhere₂.trans (hhere.trans hhere₁.symm)) hd he₁ hdirectories content'
  refine ⟨e₂, ?_, he₂⟩
  simp only [putContent, putFile, makeParent, hdir, hmade', hwritten']

end

/-! ## Any order -/

section

variable {α : Type} {xs ys : List α} {target reported : α → Path} {bytes : α → ByteArray}
  {absolute : Bool} {late : Nat} {d e z : Disk}

/-- Each item was put where there was only a part of what is there in the end. -/
theorem putAll_each (h : putAll target reported bytes late d xs = (z, .ok ())) :
    ∀ x ∈ xs, ∃ d₁ d₂, d₁.here = d.here ∧
      putContent (target x) (reported x) (bytes x) d₁ = (d₂, .ok ()) ∧ d₂.tree.Within z.tree := by
  induction xs generalizing d with
  | nil => exact fun _ hx => absurd hx List.not_mem_nil
  | cons x xs ih =>
    rw [putAll, forEach] at h
    rcases hstep : putContent (target x) (reported x) (bytes x) d with ⟨d₁, e | _⟩
    · rw [hstep] at h
      cases h
    · rw [hstep] at h
      have hrest : putAll target reported bytes late d₁ xs = (z, .ok ()) := h
      intro y hy
      rcases List.mem_cons.1 hy with rfl | hy
      · exact ⟨d, d₁, rfl, hstep, (putAll_filled hrest).1.fills.within⟩
      · obtain ⟨d₂, d₃, hhere, hput, hwithin⟩ := ih hrest y hy
        exact ⟨d₂, d₃, hhere.trans (putContent_puts hstep).filled.here_eq, hput, hwithin⟩

/-- Items of a loop that has come to its end can be put again, wherever there is only a part of what is
there in the end. -/
theorem putAll_within (h : putAll target reported bytes late d xs = (z, .ok ()))
    (habsolute : ∀ x ∈ xs, (target x).isAbsolute = absolute) (hhere : e.here = d.here)
    (hde : d.tree.Within e.tree) (hez : e.tree.Within z.tree) (hys : ∀ y ∈ ys, y ∈ xs)
    (bytes' : α → ByteArray) (late' : Nat) :
    ∃ e', putAll target reported bytes' late' e ys = (e', .ok ()) ∧ e'.tree.Within z.tree := by
  -- all relative paths start in the directory in which the first one did
  have hstart : ∀ x ∈ xs, d.tree.isDirectory (d.start (target x)) = true := by
    rcases xs with _ | ⟨first, rest⟩
    · exact fun _ hx => absurd hx List.not_mem_nil
    · intro x hx
      have hsame : d.start (target x) = d.start (target first) := by
        rw [start, start, habsolute x hx, habsolute first List.mem_cons_self]
      rw [hsame]
      rw [putAll, forEach] at h
      rcases hstep : putContent (target first) (reported first) (bytes first) d with ⟨d₁, e | _⟩
      · rw [hstep] at h
        cases h
      · exact isDirectory_start_of_putContent hstep
  -- each of them finds the directory and a part of what is there in the end
  have hstep : ∀ y ∈ ys, ∀ e₁ : Disk,
      (e₁.here = e.here ∧ d.tree.Within e₁.tree ∧ e₁.tree.Within z.tree) →
      ∃ e₂ : Disk, putContent (target y) (reported y) (bytes' y) e₁ = (e₂, .ok ()) ∧
        e₂.here = e.here ∧ d.tree.Within e₂.tree ∧ e₂.tree.Within z.tree := by
    rintro y hy e₁ ⟨hhere₁, hde₁, hez₁⟩
    obtain ⟨d₁, d₂, hhere', hput, hwithin⟩ := putAll_each h y (hys y hy)
    have hstart₁ : e₁.tree.isDirectory (e₁.start (target y)) = true := by
      have hsame : e₁.start (target y) = d.start (target y) := by
        rw [start, start, hhere₁, hhere]
      rw [hsame]
      exact hde₁.isDirectory (hstart y (hys y hy))
    obtain ⟨e₂, hput', hwithin'⟩ := putContent_within hput
      (hhere₁.trans (hhere.trans hhere'.symm)) hwithin hez₁ hstart₁ (bytes' y)
    have hfilled := (putContent_puts hput').filled
    exact ⟨e₂, hput', hfilled.here_eq.trans hhere₁, hde₁.trans hfilled.fills.within, hwithin'⟩
  obtain ⟨e', hrun, -, -, he'⟩ := forEach_ok hstep ⟨rfl, hde, hez⟩
  exact ⟨e', hrun, he'⟩

/-- **Any order will do.** What is put item by item can be put in any other order, also on a disk whose
files hold something else, and with the same files and directories in the end. -/
theorem forEach_any_order (h : putAll target reported bytes late d xs = (z, .ok ()))
    (habsolute : ∀ x ∈ xs, (target x).isAbsolute = absolute) (hhere : e.here = d.here)
    (hkind : ∀ l, d.tree.kind? l = e.tree.kind? l) (hys : ∀ x, x ∈ ys ↔ x ∈ xs)
    (bytes' : α → ByteArray) (late' : Nat) :
    ∃ z', putAll target reported bytes' late' e ys = (z', .ok ()) ∧
      ∀ l, z.tree.kind? l = z'.tree.kind? l := by
  have hde : d.tree.Within e.tree := fun l kind hl => (hkind l).symm.trans hl
  have hed : e.tree.Within d.tree := fun l kind hl => (hkind l).trans hl
  have hdz := (putAll_filled h).1.fills.within
  obtain ⟨z', hrun, hz'⟩ := putAll_within h habsolute hhere hde (hed.trans hdz)
    (fun y hy => (hys y).1 hy) bytes' late'
  -- and back again
  obtain ⟨z'', hback, hz''⟩ := putAll_within hrun (fun y hy => habsolute y ((hys y).1 hy))
    hhere.symm hed (hde.trans (putAll_filled hrun).1.fills.within) (fun x hx => (hys x).2 hx)
    bytes late
  obtain rfl : z = z'' := congrArg Prod.fst (h.symm.trans hback)
  exact ⟨z', hrun, hz''.kind?_eq hz'⟩

end

end StaticSite
