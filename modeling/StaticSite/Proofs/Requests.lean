import StaticSite.Preview.Request
import StaticSite.Proofs.Planned

/-!
# Where requests lead

A request is answered with a file below the served directory. However a URL is spelled, what is left
of it after decoding and cutting must be a path of plain names (`exists_of_resolve?`). So what is found
has these names behind those of the root, in its parts and in its place (`exists_of_found`); nothing in
it starts again at the root or leads up. The names are those of files, since a file stands there.

Where paths behind a root start is its `Disk.origin?`. Names that are put behind the root lead from
there to whatever stands below it (`Disk.origin?_join_intercalate`).
-/

namespace StaticSite

open Text

namespace Path

variable {p q : Path} {names : List String}

theorem text_join_ne_of_right (h : q.text ≠ "") : (p.join q).text ≠ "" := by
  rw [join]
  split
  · exact h
  · split <;> simp [h]

theorem text_intercalate_ne (h : ∀ name ∈ names, IsFileName name) (hne : names ≠ []) :
    (⟨"/".intercalate names⟩ : Path).text ≠ "" := by
  intro hempty
  have hsegments := segments_intercalate h hne
  rw [segments, hempty] at hsegments
  change [""] = names at hsegments
  exact (h "" (hsegments ▸ List.mem_singleton_self _)).nonempty rfl

end Path

namespace Disk

variable {d : Disk} {p q root : Path} {l : Location} {names : List String}

/-- A file stands at the place of its path. -/
theorem exists_of_isFile (h : d.isFile p = true) : ∃ content,
    d.locate? p = some (p.place d.here) ∧ d.tree.content? (p.place d.here) = some content := by
  rw [isFile, read?_eq, Option.isSome_iff_exists] at h
  obtain ⟨content, h⟩ := h
  obtain ⟨l, hl, hcontent⟩ := Option.bind_eq_some_iff.1 h
  rw [← locate?_eq_some hl]
  exact ⟨content, hl, hcontent⟩

theorem isFile_of_locate? {content : ByteArray} (hl : d.locate? p = some l)
    (hcontent : d.tree.content? l = some content) : d.isFile p = true := by
  rw [isFile, read?_eq, hl, Option.bind_some, hcontent]
  rfl

/-! ## Behind a root -/

/-- Where the paths that are put behind a path start. The empty path stands for the working
directory. -/
def origin? (d : Disk) (p : Path) : Option Location :=
  if p.text = "" then some d.here else d.locate? p

theorem origin?_of_text_ne (h : p.text ≠ "") : d.origin? p = d.locate? p := by
  rw [origin?, if_neg h]

theorem place_of_origin? (h : d.origin? p = some l) : p.place d.here = l := by
  rw [origin?] at h
  split at h
  · next htext =>
    obtain ⟨text⟩ := p
    obtain rfl : text = "" := htext
    exact Option.some.inj h
  · exact (locate?_eq_some h).symm

theorem origin?_join (hl : d.origin? p = some l) (hdir : d.tree.isDirectory l = true)
    (hq : q.isAbsolute = false) :
    d.origin? (p.join q) = q.segments.foldlM (follow? d.tree) l := by
  by_cases hp : p.text = ""
  · rw [origin?, if_pos hp] at hl
    rw [Path.join_of_empty hp hq, origin?, locate?, start, hq, if_neg Bool.false_ne_true]
    split
    · next hempty =>
      obtain ⟨text⟩ := q
      obtain rfl : text = "" := hempty
      rw [hl, Path.segments_of_plain (by decide), List.foldlM_cons]
      simp [follow?, hdir, Path.isIdle]
    · rw [Option.some.inj hl]
  · rw [origin?_of_text_ne hp] at hl
    rw [origin?_of_text_ne (Path.text_join_ne hq hp), locate?_join hl hq]

theorem foldlM_follow?_names {t : FileTree} (h : t.get? (l ++ names) ≠ none) :
    names.foldlM (follow? t) l = some (l ++ names) := by
  induction names using List.reverseRecOn with
  | nil => rw [List.append_nil]; rfl
  | append_singleton names name ih =>
    rw [← List.append_assoc] at h
    obtain ⟨hname, hdir⟩ := FileTree.get?_concat_ne_none h
    rw [List.foldlM_append, ih (FileTree.get?_ne_none_of_isDirectory hdir)]
    simp [follow?, hdir, hname, hname.noDots.2, Path.isIdle_of_isFileName hname]

/-- Names behind a root lead to what stands there. -/
theorem origin?_join_intercalate (hl : d.origin? root = some l)
    (hdir : d.tree.isDirectory l = true) (h : d.tree.get? (l ++ names) ≠ none) :
    d.origin? (root.join ⟨"/".intercalate names⟩) = some (l ++ names) := by
  have hnames := (FileTree.get?_append_ne_none h).1
  rw [origin?_join hl hdir (Path.isAbsolute_intercalate hnames)]
  rcases names with _ | ⟨name, names⟩
  · have hself : (⟨"/".intercalate []⟩ : Path).segments = [""] := by decide
    rw [hself, List.foldlM_cons]
    simp [follow?, hdir, Path.isIdle]
  · rw [Path.segments_intercalate hnames (List.cons_ne_nil _ _), foldlM_follow?_names h]

end Disk

namespace Request

variable {d : Disk} {root p q : Path} {url : String} {names : List String}

/-! ## Requests -/

theorem exists_of_all_isName {parts : List Path.Part} (h : parts.all isName = true) :
    ∃ names : List String, parts = names.map Path.Part.name := by
  induction parts with
  | nil => exact ⟨[], rfl⟩
  | cons part parts ih =>
    rw [List.all_cons, Bool.and_eq_true] at h
    obtain ⟨names, rfl⟩ := ih h.2
    cases part with
    | name value => exact ⟨value :: names, rfl⟩
    | root => cases h.1
    | current => cases h.1
    | parent => cases h.1

theorem all_isName_map (names : List String) :
    (names.map Path.Part.name).all isName = true := by
  rw [List.all_map, List.all_eq_true]
  exact fun name _ => rfl

/-- **What a request finds**: the file that its names spell behind the root, or else the index of the
directory that they spell. -/
theorem resolve?_of_spells (d : Disk) (root : Path) (hpath : path? url = some q)
    (h : q.Spells names) : resolve? d root url =
      if d.isFile (root.join q) then some (root.join q)
      else if d.isFile ((root.join q).child "index.html") then
        some ((root.join q).child "index.html")
      else none := by
  have hall : q.parts.all isName = true := by
    rw [h.parts_eq]
    exact all_isName_map names
  rw [resolve?, hpath, Option.bind_eq_bind, Option.bind_some, guard, if_pos hall]
  by_cases hfile : d.isFile (root.join q) = true
  · rw [if_pos hfile, if_pos hfile]
    rfl
  · rw [if_neg hfile, if_neg hfile]
    dsimp only
    rcases d.isFile ((root.join q).child "index.html") <;> rfl

/-- Nothing is found unless the path of the URL spells names. -/
theorem exists_of_resolve? (h : resolve? d root url = some p) :
    ∃ q names, path? url = some q ∧ q.Spells names := by
  rw [resolve?, Option.bind_eq_bind, Option.bind_eq_some_iff] at h
  obtain ⟨q, hpath, h⟩ := h
  by_cases hall : q.parts.all isName = true
  · obtain ⟨names, hnames⟩ := exists_of_all_isName hall
    exact ⟨q, names, hpath, Path.spells_of_parts hnames⟩
  · rw [guard, if_neg hall] at h
    cases h

/-- What is found stands where the names that the URL spells lead, or in the index there. -/
theorem exists_of_found (h : resolve? d root url = some p) :
    ∃ (q : Path) (asked names : List String), path? url = some q ∧ q.Spells asked ∧
      (names = asked ∨ names = asked ++ ["index.html"]) ∧ d.isFile p = true ∧
      p.parts = root.parts ++ names.map Path.Part.name ∧
      p.place d.here = root.place d.here ++ names := by
  obtain ⟨q, asked, hpath, hq⟩ := exists_of_resolve? h
  have hparts := Path.parts_join_names root hq
  have hplace := Path.place_join_names d.here root hq
  rw [resolve?_of_spells d root hpath hq] at h
  split at h
  · next hfile =>
    obtain rfl := Option.some.inj h
    exact ⟨q, asked, asked, hpath, hq, .inl rfl, hfile, hparts, hplace⟩
  · split at h
    · next hindex =>
      obtain rfl := Option.some.inj h
      refine ⟨q, asked, asked ++ ["index.html"], hpath, hq, .inr rfl, hindex, ?_, ?_⟩
      · rw [Page.parts_index, hparts, List.map_append, List.append_assoc]
        rfl
      · rw [Page.place_index, hplace, List.append_assoc]
    · cases h

/-- **No request leaves the served directory.** What is found is a file. Its path has the parts of the
root and behind them only names, each one that a file can have; it leads by these names from the place
of the root. The names are what the URL spells, or an `index.html` was added to them. -/
theorem found_below_root (h : resolve? d root url = some p) :
    d.isFile p = true ∧ ∃ asked names : List String,
      (path? url).map Path.parts = some (asked.map Path.Part.name) ∧
      (names = asked ∨ names = asked ++ ["index.html"]) ∧
      (∀ name ∈ names, IsFileName name) ∧
      p.parts = root.parts ++ names.map Path.Part.name ∧
      d.locate? p = some (root.place d.here ++ names) := by
  obtain ⟨q, asked, names, hpath, hq, hnames, hfile, hparts, hplace⟩ := exists_of_found h
  obtain ⟨content, hlocate, hcontent⟩ := Disk.exists_of_isFile hfile
  rw [hplace] at hlocate hcontent
  have hasked : (path? url).map Path.parts = some (asked.map Path.Part.name) := by
    rw [hpath, Option.map_some, hq.parts_eq]
  exact ⟨hfile, asked, names, hasked, hnames, FileTree.isFileName_of_content? hcontent, hparts,
    hlocate⟩

/-- A served directory with three pages, beside a file that is not served. Names of pages can have
blanks, percent signs and question marks. -/
def served : Disk :=
  let index (page : String) : Entry := .file page.toUTF8
  let puts : List (Location × String × Entry) :=
    [([], "secret", .file "secret".toUTF8), ([], "dist", .directory),
      (["dist"], "blog", .directory), (["dist", "blog"], "index.html", index "blog"),
      (["dist"], "50% off", .directory), (["dist", "50% off"], "index.html", index "sale"),
      (["dist"], "why?", .directory), (["dist", "why?"], "index.html", index "why")]
  let tree? := puts.foldlM (fun t (dir, name, entry) => t.put? dir name entry) FileTree.empty
  ⟨tree?.getD .empty, []⟩

theorem found_below_root_blog :
    resolve? served ⟨"dist"⟩ "/%62log//?/../secret" = some ⟨"dist/blog/index.html"⟩ ∧
    served.isFile ⟨"dist/blog/index.html"⟩ = true ∧ ∃ asked names : List String,
      (path? "/%62log//?/../secret").map Path.parts = some (asked.map Path.Part.name) ∧
      (names = asked ∨ names = asked ++ ["index.html"]) ∧
      (∀ name ∈ names, IsFileName name) ∧
      (⟨"dist/blog/index.html"⟩ : Path).parts =
        (⟨"dist"⟩ : Path).parts ++ names.map Path.Part.name ∧
      served.locate? ⟨"dist/blog/index.html"⟩ =
        some ((⟨"dist"⟩ : Path).place served.here ++ names) := by
  have hfound : resolve? served ⟨"dist"⟩ "/%62log//?/../secret" =
      some ⟨"dist/blog/index.html"⟩ := by
    decide +kernel
  exact ⟨hfound, found_below_root hfound⟩

end Request

end StaticSite
