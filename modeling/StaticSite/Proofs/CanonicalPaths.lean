import StaticSite.Proofs.Filling
import StaticSite.Proofs.Placeholders
import StaticSite.Proofs.Walks

/-!
# Paths from the top

What stands somewhere has a path that starts at the top and spells the names of its location, and
nothing else. It is the path of the top with the names put behind it (`pathOf_eq`), so putting a name
behind such a path gives another one (`pathOf_child`), and its parts can be told. Making a path
absolute changes its spelling, but not where it leads (`place_normalize`).
-/

namespace StaticSite

open Text

variable {d : Disk} {l k : Location} {p q : Path} {name : String}

theorem isFileName_concat (h : ∀ other ∈ l, IsFileName other) (hname : IsFileName name) :
    ∀ other ∈ l ++ [name], IsFileName other :=
  List.forall_mem_append.2 ⟨h, List.forall_mem_singleton.2 hname⟩

/-- The location of a directory is made of names that a file can have. -/
theorem isFileName_of_isDirectory {t : FileTree} (h : t.isDirectory l = true) :
    ∀ name ∈ l, IsFileName name :=
  (FileTree.get?_append_ne_none (l := []) (FileTree.get?_ne_none_of_isDirectory h)).1

/-! ## Names behind the top -/

namespace Disk

/-- The path of a location is made by putting its names behind the top. -/
theorem pathOf_eq (h : ∀ name ∈ l, IsFileName name) : pathOf l = l.foldl Path.child ⟨"/"⟩ := by
  rcases l with _ | ⟨first, rest⟩
  · rfl
  · have hfirst := h first List.mem_cons_self
    have hchild : (⟨"/"⟩ : Path).child first = ⟨"/" ++ first⟩ := by
      rw [Path.child, Path.join, Path.isAbsolute_of_plain hfirst.plain.1,
        if_neg Bool.false_ne_true, if_pos (.inr rfl)]
    rw [List.foldl_cons, hchild,
      Path.foldl_child_of_text (Path.getLast?_append_ne_slash "/" hfirst) (by simp)
        fun name hname => h name (List.mem_cons_of_mem _ hname), pathOf]
    rcases rest with _ | ⟨next, rest⟩
    · rfl
    · simp only [String.intercalate_cons_cons, String.append_assoc]

theorem pathOf_child (h : ∀ name ∈ l, IsFileName name) (hname : IsFileName name) :
    (pathOf l).child name = pathOf (l ++ [name]) := by
  rw [pathOf_eq h, pathOf_eq (isFileName_concat h hname), List.foldl_concat]

theorem isAbsolute_pathOf (l : Location) : (pathOf l).isAbsolute = true := by
  simp [pathOf, Path.isAbsolute]

theorem place_pathOf (here : Location) (h : ∀ name ∈ l, IsFileName name) :
    (pathOf l).place here = l := by
  rw [pathOf_eq h]
  induction l using List.reverseRecOn with
  | nil => rfl
  | append_singleton l name ih =>
    have hname := h name (by simp)
    rw [List.foldl_concat, Path.place_child here _ hname.plain.1,
      ih fun other hother => h other (List.mem_append_left _ hother),
      Path.lead_of_isFileName hname]

/-- The path of what stands somewhere leads there. -/
theorem locate?_pathOf (h : d.tree.get? l ≠ none) : d.locate? (pathOf l) = some l := by
  have htop : d.locate? ⟨"/"⟩ = some [] := by
    have hdir : d.tree.isDirectory [] = true := by simp [FileTree.isDirectory, FileTree.get?]
    have hsegments : (⟨"/"⟩ : Path).segments = ["", ""] := by decide
    have hstart : d.start ⟨"/"⟩ = [] := rfl
    rw [locate?, if_neg (by decide), hsegments, hstart]
    simp [follow?, hdir, Path.isIdle]
  rw [pathOf_eq (FileTree.get?_append_ne_none (l := []) h).1]
  exact locate?_foldl_child htop h

theorem isDirectory_pathOf (h : ∀ name ∈ l, IsFileName name) :
    d.isDirectory (pathOf l) = d.tree.isDirectory l := by
  rcases hdir : d.tree.isDirectory l with _ | _
  · rw [isDirectory, decide_eq_false_iff_not, entry?, Option.bind_eq_some_iff]
    rintro ⟨k, hk, hget⟩
    have hplace := locate?_eq_some hk
    rw [place_pathOf d.here h] at hplace
    rw [FileTree.isDirectory, decide_eq_false_iff_not] at hdir
    exact hdir (hplace ▸ hget)
  · have hget : d.tree.get? l = some .directory := of_decide_eq_true hdir
    rw [isDirectory, entry?, locate?_pathOf (hget ▸ Option.some_ne_none _), Option.bind_some, hget,
      decide_eq_true rfl]

theorem exists_of_pathExists (h : d.pathExists p = true) :
    ∃ l, d.locate? p = some l ∧ d.tree.get? l ≠ none := by
  rw [pathExists, entry?, Option.isSome_iff_exists] at h
  obtain ⟨entry, hentry⟩ := h
  obtain ⟨l, hl, hget⟩ := Option.bind_eq_some_iff.1 hentry
  exact ⟨l, hl, hget ▸ Option.some_ne_none entry⟩

theorem normalize_of_locate? (hl : d.locate? p = some l) (h : d.tree.get? l ≠ none) :
    d.normalize p = pathOf l := by
  have hsome : (d.tree.get? l).isSome = true := Option.isSome_iff_ne_none.2 h
  rw [normalize, resolve?, hl, Option.bind_some, if_pos hsome]

theorem normalize_of_not_pathExists (h : d.pathExists p = false) :
    d.normalize p = if p.isAbsolute then p else (pathOf d.here).join p := by
  have hnone : d.resolve? p = none := by
    rw [pathExists, entry?, Option.isSome_eq_false_iff, Option.isNone_iff_eq_none] at h
    rw [resolve?]
    rcases hl : d.locate? p with _ | k
    · rfl
    · rw [hl, Option.bind_some] at h
      rw [Option.bind_some, h]
      rfl
  rw [normalize, hnone]

theorem isAbsolute_normalize (d : Disk) (p : Path) : (d.normalize p).isAbsolute = true := by
  rw [normalize]
  split
  · next q hq =>
    rw [resolve?, Option.bind_eq_some_iff] at hq
    obtain ⟨k, -, hq⟩ := hq
    split at hq
    · rw [← Option.some.inj hq]
      exact isAbsolute_pathOf k
    · cases hq
  · split
    · next habsolute => exact habsolute
    · next habsolute =>
      rw [Bool.not_eq_true] at habsolute
      rw [Path.isAbsolute_join _ habsolute]
      exact isAbsolute_pathOf _

/-- The absolute form of a path from the top is the path itself, whatever stands there. -/
theorem normalize_pathOf (h : ∀ name ∈ l, IsFileName name) : d.normalize (pathOf l) = pathOf l := by
  rcases hexists : d.pathExists (pathOf l) with _ | _
  · rw [normalize_of_not_pathExists hexists, if_pos (isAbsolute_pathOf l)]
  · obtain ⟨k, hk, hstands⟩ := exists_of_pathExists hexists
    have hplace := locate?_eq_some hk
    rw [place_pathOf d.here h] at hplace
    rw [normalize_of_locate? hk hstands, hplace]

/-- Making a path absolute does not change where it leads. -/
theorem place_normalize (hhere : ∀ name ∈ d.here, IsFileName name) (p : Path) :
    (d.normalize p).place d.here = p.place d.here := by
  rcases hexists : d.pathExists p with _ | _
  · rw [normalize_of_not_pathExists hexists]
    split
    · rfl
    · next habsolute =>
      rw [Bool.not_eq_true] at habsolute
      rw [Path.place_join d.here _ habsolute, place_pathOf d.here hhere, Path.place, Path.placeOf,
        habsolute, if_neg Bool.false_ne_true]
  · obtain ⟨k, hk, hstands⟩ := exists_of_pathExists hexists
    have hnames := (FileTree.get?_append_ne_none (l := []) hstands).1
    rw [normalize_of_locate? hk hstands, place_pathOf d.here hnames]
    exact locate?_eq_some hk

/-- A name below a path can only be reached through a directory at this path. -/
theorem locate?_of_child (htext : p.text ≠ "") (hslash : '/' ∉ name.toList)
    (h : d.locate? (p.child name) = some k) :
    ∃ l, d.locate? p = some l ∧ d.tree.isDirectory l = true := by
  have hrelative := Path.isAbsolute_of_plain hslash
  have hstart : d.start (p.child name) = d.start p := by
    rw [start, start, Path.child, Path.isAbsolute_join p hrelative]
  have hchild : (p.child name).text ≠ "" := Path.text_join_ne hrelative htext
  rw [locate?, if_neg hchild, Path.segments_child p hslash, List.foldlM_append, hstart,
    Option.bind_eq_bind, Option.bind_eq_some_iff] at h
  obtain ⟨l, hl, hlast⟩ := h
  have hdir : d.tree.isDirectory l = true := by
    rw [List.foldlM_cons, Option.bind_eq_bind, Option.bind_eq_some_iff] at hlast
    obtain ⟨next, hnext, -⟩ := hlast
    exact (follow?_eq_some hnext).1
  refine ⟨l, ?_, hdir⟩
  rw [locate?, if_neg htext]
  rcases p.segments_eq with heq | heq
  · rwa [heq]
  · rw [heq, List.foldlM_append, hl]
    simp [follow?, hdir, Path.isIdle]

end Disk

/-! ## Taking a path apart -/

namespace Path

theorem body_foldl_child (h : p.text ≠ "") (hbody : p.frontBody = [])
    (hnames : ∀ name ∈ l, IsFileName name) :
    (l.foldl child p).body = l ∨ (l.foldl child p).body = l ++ [""] := by
  have hfront := frontBody_foldl_child h hnames
  rw [hbody, List.nil_append] at hfront
  rcases body_eq (head?_foldl_child h hnames).2 with heq | heq
  · exact .inl (heq.trans hfront)
  · exact .inr (heq.trans (congrArg (· ++ [""]) hfront))

theorem dropIdleEnd_pathOf (h : ∀ name ∈ l, IsFileName name) :
    dropIdleEnd (Disk.pathOf l).body = l := by
  have hdrop := dropIdleEnd_of_isFileName h
  have htext : (⟨"/"⟩ : Path).text ≠ "" := by decide
  have hfront : (⟨"/"⟩ : Path).frontBody = [] := by decide
  rw [Disk.pathOf_eq h]
  rcases body_foldl_child htext hfront h with heq | heq
  · rw [heq, hdrop]
  · rw [heq, dropIdleEnd_concat_empty, hdrop]

theorem head?_pathOf (l : Location) : (Disk.pathOf l).head? = some .root := by
  rw [head?, Disk.isAbsolute_pathOf, if_pos rfl]

/-- The directory of a path from the top. -/
theorem parent?_pathOf (h : ∀ other ∈ l ++ [name], IsFileName other) :
    (Disk.pathOf (l ++ [name])).parent? = some (Disk.pathOf l) := by
  have hl : ∀ other ∈ l, IsFileName other :=
    fun other hother => h other (List.mem_append_left _ hother)
  have hdrop := dropIdleEnd_pathOf h
  rw [parent?, hdrop, head?_pathOf]
  rcases hcons : l ++ [name] with _ | ⟨first, rest⟩
  · simp at hcons
  · dsimp only
    rw [← hcons, List.dropLast_concat, dropIdleEnd_of_isFileName hl]
    rfl

/-- The name of what a path from the top leads to. -/
theorem fileName?_pathOf (h : ∀ other ∈ l ++ [name], IsFileName other) :
    (Disk.pathOf (l ++ [name])).fileName? = some name := by
  have hname := (h name (by simp)).noDots.2
  rw [fileName?, dropIdleEnd_pathOf h, List.getLast?_concat]
  split
  · next heq => exact absurd (Option.some.inj heq) hname
  · rfl

/-- A path from the top is made of the root and names. -/
theorem parts_pathOf (h : ∀ name ∈ l, IsFileName name) :
    (Disk.pathOf l).parts = .root :: l.map .name := by
  have htext : (⟨"/"⟩ : Path).text ≠ "" := by decide
  have hfront : (⟨"/"⟩ : Path).frontBody = [] := by decide
  have hnames := filterMap_partOf? h
  rw [parts, head?_pathOf, Disk.pathOf_eq h]
  rcases body_foldl_child htext hfront h with heq | heq
  · rw [heq, hnames]
    rfl
  · have hempty : [""].filterMap partOf? = [] := by decide
    rw [heq, List.filterMap_append, hnames, hempty, List.append_nil]
    rfl

theorem same_pathOf (hl : ∀ name ∈ l, IsFileName name) (hk : ∀ name ∈ k, IsFileName name) :
    (Disk.pathOf l).same (Disk.pathOf k) = true ↔ l = k := by
  have hinjective : Function.Injective Part.name := fun _ _ heq => Part.name.inj heq
  rw [same, decide_eq_true_eq, parts_pathOf hl, parts_pathOf hk, List.cons.injEq,
    (List.map_injective_iff.2 hinjective).eq_iff]
  exact and_iff_right rfl

theorem foldl_cleanStep_names (names : List String) (done : List Part) :
    (names.map Part.name).foldl cleanStep done = (names.map Part.name).reverse ++ done := by
  induction names generalizing done with
  | nil => rfl
  | cons name names ih =>
    rw [List.map_cons, List.foldl_cons, ih, List.reverse_cons, List.append_assoc]
    rfl

/-- There is nothing to clean in a path from the top. -/
theorem clean_pathOf (h : ∀ name ∈ l, IsFileName name) :
    (Disk.pathOf l).clean = Disk.pathOf l := by
  have hstart : cleanStep [] .root = [.root] := rfl
  have hroot : (⟨""⟩ : Path).child Part.root.text = ⟨"/"⟩ := by decide
  rw [clean, parts_pathOf h, List.foldl_cons, hstart, foldl_cleanStep_names, List.reverse_append,
    List.reverse_reverse, List.reverse_singleton, List.singleton_append, ofParts,
    List.foldl_cons, hroot, List.foldl_map, Disk.pathOf_eq h]
  rfl

/-- Two names behind a path are one relative path behind it. -/
theorem child_child {first second : String} (hfirst : IsFileName first)
    (hsecond : IsFileName second) :
    (p.child first).child second = p.join ⟨first ++ "/" ++ second⟩ := by
  have hrelative : (⟨first ++ "/" ++ second⟩ : Path).isAbsolute = false := by
    rw [isAbsolute, decide_eq_false_iff_not, String.toList_append, String.toList_append]
    rcases hchars : first.toList with _ | ⟨c, s⟩
    · exact absurd (String.toList_eq_nil_iff.1 hchars) hfirst.nonempty
    · intro hhead
      exact hfirst.plain.1 (hchars ▸ List.mem_of_head? hhead)
  have hlast (s : String) := getLast?_append_ne_slash s hfirst
  rw [child.eq_def p, join, isAbsolute_of_plain hfirst.plain.1, if_neg Bool.false_ne_true, join,
    hrelative, if_neg Bool.false_ne_true]
  split
  · rw [child_of_text (hlast _) (by simp [hfirst.nonempty]) hsecond]
    simp only [String.append_assoc]
  · rw [child_of_text (hlast _) (by simp) hsecond]
    simp only [String.append_assoc]

theorem relativeTo_child (p : Path) (h : IsFileName name) :
    (p.child name).relativeTo p = ⟨name⟩ := by
  have hnames := relativeTo_names p (List.forall_mem_singleton.2 h)
  rwa [List.foldl_cons, List.foldl_nil, String.intercalate_singleton] at hnames

/-- A path with a name behind it ends in this name. -/
theorem exists_text_child (p : Path) (hslash : '/' ∉ name.toList) :
    ∃ s, (p.child name).text = s ++ name := by
  rw [child, join, isAbsolute_of_plain hslash, if_neg Bool.false_ne_true]
  split
  · exact ⟨_, rfl⟩
  · exact ⟨_, rfl⟩

/-- A slash at the end of a path makes no difference to the names behind it. -/
theorem child_join_empty (p : Path) (hslash : '/' ∉ name.toList) :
    (p.join ⟨""⟩).child name = p.child name := by
  have hempty : (⟨""⟩ : Path).isAbsolute = false := rfl
  have hrelative := isAbsolute_of_plain hslash
  have hchild (s : String) (hs : s.toList.getLast? = some '/') :
      (⟨s⟩ : Path).child name = ⟨s ++ name⟩ := by
    rw [child, join, hrelative, if_neg Bool.false_ne_true, if_pos (.inr hs)]
  rw [join, hempty, if_neg Bool.false_ne_true, String.append_empty]
  split
  · rfl
  · next hend =>
    rw [String.append_empty, hchild _ (by simp), child, join, hrelative,
      if_neg Bool.false_ne_true, if_neg hend]

end Path

end StaticSite
