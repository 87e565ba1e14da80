import StaticSite.Files.Path
import Std.Data.ExtTreeMap

/-!
# Trees of files

A file tree says what stands at a *location*, the list of names that leads there from the top: a
file with its bytes, a directory, or nothing. The top is a directory and has no entry of its own.
Whatever has an entry stands in a directory, and all names are such as a file can have; these rules
are part of the type.

Three operations change a tree: `put?`, `prune` and `emptied`. `get?_put?`, `get?_prune` and
`get?_emptied` say what they change, and everything else in the library that writes files is made of
them. Entries are listed in the
order of their locations, which is the order of a walk that goes down into each directory when it
meets it and takes names by their bytes.
-/

namespace StaticSite

open Text

/-- The names that lead from the top of a tree to a place in it. -/
abbrev Location := List String

/-- Contents are compared byte by byte. -/
instance contentDecidableEq : DecidableEq ByteArray := ByteArray.instDecidableEq

/-- What can stand at a location. -/
inductive Entry where
  /-- a file with its content -/
  | file (content : ByteArray)
  /-- a directory -/
  | directory
  deriving DecidableEq

/-- A name that a file or directory can have. -/
structure IsFileName (name : String) : Prop where
  /-- it is not empty -/
  nonempty : name ≠ ""
  /-- it is neither of the two names that every directory has -/
  noDots : name ≠ "." ∧ name ≠ ".."
  /-- it has no slash and no NUL -/
  plain : '/' ∉ name.toList ∧ '\x00' ∉ name.toList
  /-- it has at most 255 bytes -/
  short : byteLength name.toList ≤ 255

instance (name : String) : Decidable (IsFileName name) :=
  if h : name ≠ "" ∧ (name ≠ "." ∧ name ≠ "..") ∧
      ('/' ∉ name.toList ∧ '\x00' ∉ name.toList) ∧ byteLength name.toList ≤ 255 then
    isTrue ⟨h.1, h.2.1, h.2.2.1, h.2.2.2⟩
  else isFalse fun ⟨h₁, h₂, h₃, h₄⟩ => h ⟨h₁, h₂, h₃, h₄⟩

/-- Entries by location. -/
abbrev Entries := Std.ExtTreeMap Location Entry compare

/-- The rules that the entries of a tree keep. -/
structure Entries.Wellformed (e : Entries) : Prop where
  /-- the top has no entry -/
  top : e[([] : Location)]? = none
  /-- every entry has a name that a file can have -/
  named : ∀ (dir : Location) (name : String), e[dir ++ [name]]? ≠ none → IsFileName name
  /-- every entry stands in a directory -/
  housed : ∀ (dir : Location) (name : String), e[dir ++ [name]]? ≠ none →
    dir = [] ∨ e[dir]? = some .directory

/-- A tree of files and directories. -/
structure FileTree where
  /-- what stands where -/
  entries : Entries
  /-- the rules are kept -/
  wellformed : entries.Wellformed

namespace FileTree

/-- The tree without entries. -/
def empty : FileTree := ⟨∅, ⟨by simp, by simp, by simp⟩⟩

instance : Inhabited FileTree := ⟨empty⟩

/-- What stands at a location. -/
def get? (t : FileTree) (l : Location) : Option Entry :=
  if l = [] then some .directory else t.entries[l]?

/-- Whether a directory stands at a location. -/
def isDirectory (t : FileTree) (l : Location) : Bool := t.get? l = some .directory

/-- The content of the file at a location. -/
def content? (t : FileTree) (l : Location) : Option ByteArray :=
  match t.get? l with
  | some (.file content) => some content
  | _ => none

@[ext] theorem ext {t u : FileTree} (h : ∀ l, t.get? l = u.get? l) : t = u := by
  obtain ⟨e, he⟩ := t
  obtain ⟨f, hf⟩ := u
  congr
  refine Std.ExtTreeMap.ext_getElem? fun l => ?_
  by_cases hl : l = []
  · subst hl; rw [he.top, hf.top]
  · simpa [get?, hl] using h l

theorem append_singleton_ne_nil (dir : Location) (name : String) : dir ++ [name] ≠ [] := by simp

/-- Puts an entry into a directory. This needs the directory, a name that a file can have, and that
no directory stands there already. -/
def put? (t : FileTree) (dir : Location) (name : String) (entry : Entry) : Option FileTree :=
  if h : t.isDirectory dir ∧ IsFileName name ∧ t.get? (dir ++ [name]) ≠ some .directory then
    some ⟨t.entries.insert (dir ++ [name]) entry, by
      obtain ⟨hdir, hname, hold⟩ := h
      have hget : ∀ l, (t.entries.insert (dir ++ [name]) entry)[l]? =
          if dir ++ [name] = l then some entry else t.entries[l]? := by
        intro l; simp [Std.ExtTreeMap.getElem?_insert]
      refine ⟨?_, ?_, ?_⟩
      · rw [hget, if_neg (by simp), t.wellformed.top]
      · intro d n hn
        rw [hget] at hn
        split at hn
        · next he => rw [(List.append_inj' he rfl).2 |> List.singleton_inj.1] at hname; exact hname
        · exact t.wellformed.named d n hn
      · intro d n hn
        rw [hget] at hn
        have hd : d = [] ∨ t.entries[d]? = some .directory := by
          split at hn
          · next he =>
            rw [← (List.append_inj' he rfl).1]
            by_cases hnil : dir = []
            · exact Or.inl hnil
            · right; simpa [isDirectory, get?, hnil] using hdir
          · exact t.wellformed.housed d n hn
        rcases hd with hd | hd
        · exact Or.inl hd
        · right
          rw [hget]
          split
          · next he =>
            subst he
            simp [get?, hd] at hold
          · exact hd⟩
  else none

/-- What was put in stands where it was put, and nothing else has changed. -/
theorem get?_put? {t u : FileTree} {dir : Location} {name : String} {entry : Entry}
    (h : t.put? dir name entry = some u) (l : Location) :
    u.get? l = if l = dir ++ [name] then some entry else t.get? l := by
  rw [put?] at h
  split at h
  · obtain rfl := Option.some.inj h
    by_cases hl : l = []
    · subst hl
      simp [get?]
    · simp only [get?, if_neg hl, Std.ExtTreeMap.getElem?_insert, Std.LawfulEqCmp.compare_eq_iff_eq]
      by_cases hk : dir ++ [name] = l
      · rw [if_pos hk, if_pos hk.symm]
      · rw [if_neg hk, if_neg (Ne.symm hk)]
  · exact absurd h (by simp)

/-- The part of a tree at some locations. Where one of them is kept, the directory that it stands in has
to be. -/
def restrict (t : FileTree) (keeps : Location → Bool)
    (h : ∀ (dir : Location) (name : String), keeps (dir ++ [name]) = true → keeps dir = true) :
    FileTree :=
  ⟨t.entries.filter fun key _ => keeps key, by
    have hget : ∀ key : Location, (t.entries.filter fun key _ => keeps key)[key]? =
        if keeps key then t.entries[key]? else none := by
      intro key
      cases hv : t.entries[key]? with
      | none => simp [Std.ExtTreeMap.getElem?_filter, hv]
      | some v => by_cases hk : keeps key <;> simp [Std.ExtTreeMap.getElem?_filter, hv, hk]
    refine ⟨?_, ?_, ?_⟩
    · rw [hget, t.wellformed.top]; simp
    · intro d n hn
      rw [hget] at hn
      split at hn
      · exact t.wellformed.named d n hn
      · exact absurd rfl hn
    · intro d n hn
      rw [hget] at hn
      split at hn
      · next hk =>
        rw [hget, if_pos (h d n hk)]
        exact t.wellformed.housed d n hn
      · exact absurd rfl hn⟩

theorem get?_restrict (t : FileTree) (keeps : Location → Bool)
    (h : ∀ (dir : Location) (name : String), keeps (dir ++ [name]) = true → keeps dir = true)
    (key : Location) :
    (t.restrict keeps h).get? key = if key = [] ∨ keeps key = true then t.get? key else none := by
  by_cases hnil : key = []
  · simp [get?, hnil]
  · by_cases hk : keeps key = true <;> cases hv : t.entries[key]? <;>
      simp [get?, restrict, hnil, hk, Std.ExtTreeMap.getElem?_filter, hv]

/-- Takes away a location with everything below it. -/
def prune (t : FileTree) (l : Location) : FileTree :=
  t.restrict (fun key => !l.isPrefixOf key) fun dir name h => by
    rw [Bool.not_eq_true', ← Bool.not_eq_true, List.isPrefixOf_iff_prefix] at h ⊢
    exact fun hdir => h (hdir.trans (List.prefix_append _ _))

/-- At and below the location nothing is left but the top itself, and nothing else has changed. -/
theorem get?_prune (t : FileTree) (l key : Location) :
    (t.prune l).get? key = if l <+: key ∧ key ≠ [] then none else t.get? key := by
  rw [prune, get?_restrict]
  by_cases hk : key = []
  · simp [hk]
  · by_cases hp : l <+: key
    · have hb : l.isPrefixOf key = true := List.isPrefixOf_iff_prefix.2 hp
      simp [hk, hp, hb]
    · have hb : l.isPrefixOf key = false :=
        Bool.eq_false_iff.2 fun h => hp (List.isPrefixOf_iff_prefix.1 h)
      simp [hp, hb]

/-- Takes away everything below a location. -/
def emptied (t : FileTree) (l : Location) : FileTree :=
  t.restrict (fun key => !l.isPrefixOf key || key == l) fun dir name h => by
    rw [Bool.or_eq_true, Bool.not_eq_true', ← Bool.not_eq_true, List.isPrefixOf_iff_prefix,
      beq_iff_eq] at h ⊢
    by_cases hdir : l <+: dir
    · rcases h with h | h
      · exact absurd (hdir.trans (List.prefix_append _ _)) h
      · have hlength := hdir.length_le
        rw [← h, List.length_append, List.length_singleton] at hlength
        omega
    · exact .inl hdir

/-- Below the location nothing is left, and nothing else has changed. -/
theorem get?_emptied (t : FileTree) (l key : Location) :
    (t.emptied l).get? key = if l <+: key ∧ key ≠ l then none else t.get? key := by
  rw [emptied, get?_restrict]
  by_cases hk : key = l
  · simp [hk]
  · by_cases hp : l <+: key
    · have hnil : key ≠ [] := fun hnil => hk (hnil.trans (List.prefix_nil.1 (hnil ▸ hp)).symm)
      have hb : l.isPrefixOf key = true := List.isPrefixOf_iff_prefix.2 hp
      simp [hp, hb, hk, hnil]
    · have hb : l.isPrefixOf key = false :=
        Bool.eq_false_iff.2 fun h => hp (List.isPrefixOf_iff_prefix.1 h)
      simp [hp, hb]

/-- The entries below a location, in the order of a walk. -/
def below (t : FileTree) (l : Location) : List (Location × Entry) :=
  t.entries.toList.filter fun (key, _) => l.isPrefixOf key && key != l

/-- The locations of the files at or below a location, in the order of a walk. -/
def filesAt (t : FileTree) (l : Location) : List Location :=
  t.entries.toList.filterMap fun (key, entry) =>
    match entry with
    | .file _ => if l.isPrefixOf key then some key else none
    | .directory => none

end FileTree

end StaticSite
