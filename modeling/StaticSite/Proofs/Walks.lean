import StaticSite.Proofs.Places

/-!
# What a walk finds

Whatever stands in a tree stands in directories, under names that a file can have. So each file that
a walk through a directory finds is spelled with such names behind that directory, and this path leads
to the file.
-/

namespace StaticSite

/-! ## Below a location -/

namespace FileTree

variable {t : FileTree} {l k : Location}

theorem get?_concat_ne_none {name : String} (h : t.get? (l ++ [name]) ≠ none) :
    IsFileName name ∧ t.isDirectory l = true := by
  have hentry : t.entries[l ++ [name]]? ≠ none := by
    rwa [get?, if_neg (append_singleton_ne_nil l name)] at h
  refine ⟨t.wellformed.named l name hentry, ?_⟩
  rw [isDirectory, decide_eq_true_eq, get?]
  split
  · rfl
  · next hne => exact (t.wellformed.housed l name hentry).resolve_left hne

theorem get?_ne_none_of_isDirectory (h : t.isDirectory l = true) : t.get? l ≠ none := by
  rw [isDirectory, decide_eq_true_eq] at h
  rw [h]
  exact Option.some_ne_none _

/-- Whatever stands somewhere stands in directories, under names that a file can have. -/
theorem get?_append_ne_none (h : t.get? (l ++ k) ≠ none) :
    (∀ name ∈ k, IsFileName name) ∧ (k ≠ [] → t.isDirectory l = true) := by
  induction k using List.reverseRecOn with
  | nil => exact ⟨fun _ hmem => absurd hmem List.not_mem_nil, fun hne => absurd rfl hne⟩
  | append_singleton k name ih =>
    rw [← List.append_assoc] at h
    obtain ⟨hname, hdir⟩ := get?_concat_ne_none h
    obtain ⟨hnames, hl⟩ := ih (get?_ne_none_of_isDirectory hdir)
    refine ⟨fun other hmem => ?_, fun _ => ?_⟩
    · rcases List.mem_append.1 hmem with hmem | hmem
      · exact hnames other hmem
      · rwa [List.mem_singleton.1 hmem]
    · by_cases hk : k = []
      · rwa [hk, List.append_nil] at hdir
      · exact hl hk

theorem content?_eq_some {content : ByteArray} :
    t.content? l = some content ↔ t.get? l = some (.file content) := by
  rw [content?]
  split
  · next h => rw [h, Option.some_inj, Option.some_inj, Entry.file.injEq]
  · next h => exact ⟨nofun, fun heq => absurd heq (h content)⟩

theorem get?_ne_none_of_content? {content : ByteArray} (h : t.content? l = some content) :
    t.get? l ≠ none := by
  rw [content?_eq_some.1 h]
  exact Option.some_ne_none _

theorem isFileName_of_content? {content : ByteArray} (h : t.content? (l ++ k) = some content) :
    ∀ name ∈ k, IsFileName name :=
  (get?_append_ne_none (get?_ne_none_of_content? h)).1

theorem entries_eq_file {content : ByteArray} :
    t.entries[l]? = some (.file content) ↔ t.content? l = some content := by
  rw [content?_eq_some, get?]
  split
  · next hnil =>
    rw [hnil, t.wellformed.top]
    exact ⟨nofun, nofun⟩
  · rfl

theorem mem_filesAt : k ∈ t.filesAt l ↔ l <+: k ∧ ∃ content, t.content? k = some content := by
  rw [filesAt, List.mem_filterMap]
  constructor
  · rintro ⟨⟨key, content | _⟩, hmem, hkey⟩
    · rw [Std.ExtTreeMap.mem_toList_iff_getElem?_eq_some] at hmem
      obtain ⟨hstart, rfl⟩ : l.isPrefixOf key = true ∧ key = k := by simpa using hkey
      exact ⟨List.isPrefixOf_iff_prefix.1 hstart, content, entries_eq_file.1 hmem⟩
    · cases hkey
  · rintro ⟨hstart, content, hcontent⟩
    refine ⟨(k, .file content), ?_, if_pos (List.isPrefixOf_iff_prefix.2 hstart)⟩
    rw [Std.ExtTreeMap.mem_toList_iff_getElem?_eq_some]
    exact entries_eq_file.2 hcontent

/-- The names that lead from a location to the files at or below it, in the order of a walk. -/
def namesBelow (t : FileTree) (l : Location) : List Location :=
  (t.filesAt l).map fun file => file.drop l.length

theorem mem_namesBelow : k ∈ t.namesBelow l ↔ ∃ content, t.content? (l ++ k) = some content := by
  rw [namesBelow, List.mem_map]
  constructor
  · rintro ⟨file, hfile, rfl⟩
    obtain ⟨⟨names, rfl⟩, hcontent⟩ := mem_filesAt.1 hfile
    rwa [List.drop_left]
  · intro hcontent
    exact ⟨l ++ k, mem_filesAt.2 ⟨List.prefix_append l k, hcontent⟩, List.drop_left⟩

end FileTree

/-! ## Below a path -/

namespace Disk

variable {d : Disk} {p dir source : Path} {l : Location} {names : List String}

theorem read?_eq (d : Disk) (p : Path) : d.read? p = (d.locate? p).bind d.tree.content? := by
  rw [read?, entry?]
  cases d.locate? p with
  | none => rfl
  | some l => rfl

/-- Names behind a directory lead to what stands below it. -/
theorem locate?_foldl_child (hl : d.locate? p = some l) (h : d.tree.get? (l ++ names) ≠ none) :
    d.locate? (names.foldl Path.child p) = some (l ++ names) := by
  induction names using List.reverseRecOn with
  | nil => rwa [List.append_nil]
  | append_singleton names name ih =>
    rw [← List.append_assoc] at h ⊢
    obtain ⟨hname, hdir⟩ := FileTree.get?_concat_ne_none h
    rw [List.foldl_concat]
    exact locate?_child (ih (FileTree.get?_ne_none_of_isDirectory hdir)) hdir hname

/-- The files of a walk are those that stand below the directory, each spelled with the names that
lead to it. -/
theorem filesUnder_eq (hl : d.locate? dir = some l) :
    d.filesUnder dir = (d.tree.namesBelow l).map fun names => names.foldl Path.child dir := by
  rw [filesUnder, hl, FileTree.namesBelow, List.map_map]
  rfl

theorem mem_filesUnder (h : source ∈ d.filesUnder dir) :
    dir.text ≠ "" ∧ ∃ names : List String, (∀ name ∈ names, IsFileName name) ∧
      source = names.foldl Path.child dir := by
  rcases hl : d.locate? dir with _ | l
  · rw [filesUnder, hl] at h
    exact absurd h List.not_mem_nil
  · rw [filesUnder_eq hl] at h
    obtain ⟨names, hnames, rfl⟩ := List.mem_map.1 h
    obtain ⟨content, hcontent⟩ := FileTree.mem_namesBelow.1 hnames
    exact ⟨text_ne_of_locate? hl, names, (FileTree.isFileName_of_content? hcontent), rfl⟩

end Disk

end StaticSite
