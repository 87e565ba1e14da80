import StaticSite.Proofs.CanonicalPaths
import StaticSite.Proofs.CleanPaths
import StaticSite.Proofs.Starter
import StaticSite.Site.Assets

/-!
# References to style sheets

The index of the assets and the references to it clean their paths on their own, and they meet at one
key: a cleaned path from the top is the root with the names of the place to which the path leads, as
long as it never leads above the top (`parts_clean_of_up`). A reference that stays below the root of
the project, at every point of its way, therefore finds the file to which its parts lead, however it is
spelled, if this file is one of the index, and otherwise nothing. The index has each file that the
filters select, and each of them once (`references_find_sheets`).
-/

namespace StaticSite

open Text

namespace Path

variable {p q : Path} {l m : List Part} {here : Location} {names : List String}

/-! ## Ways that stay below their start -/

/-- Whether a part is a name. -/
def Part.isName : Part → Bool
  | .name _ => true
  | .root | .current | .parent => false

/-- At no point of a way more levels lead up than down. -/
def StaysBelow (l : List Part) : Prop := ∀ m, m <+: l → m.count .parent ≤ m.countP Part.isName

instance (l : List Part) : Decidable (StaysBelow l) :=
  decidable_of_iff (∀ m ∈ l.inits, m.count .parent ≤ m.countP Part.isName)
    (by simp [StaysBelow, List.mem_inits])

theorem StaysBelow.of_prefix (h : StaysBelow l) (hm : m <+: l) : StaysBelow m :=
  fun k hk => h k (hk.trans hm)

theorem StaysBelow.of_current (h : StaysBelow (.current :: l)) : StaysBelow l := by
  intro m hm
  have hcount := h (.current :: m) (List.cons_prefix_cons.2 ⟨rfl, hm⟩)
  rwa [List.count_cons_of_ne (by simp), List.countP_cons_of_neg (by simp [Part.isName])] at hcount

theorem StaysBelow.of_name {name : String} (h : StaysBelow l) : StaysBelow (.name name :: l) := by
  intro m hm
  rcases m with _ | ⟨first, m⟩
  · simp
  · obtain ⟨rfl, hrest⟩ := List.cons_prefix_cons.1 hm
    have hcount := h m hrest
    rw [List.count_cons_of_ne (by simp), List.countP_cons_of_pos rfl]
    exact Nat.le_succ_of_le hcount

theorem StaysBelow.of_names (h : StaysBelow l) (names : List String) :
    StaysBelow (names.map .name ++ l) := by
  induction names with
  | nil => exact h
  | cons name names ih => exact ih.of_name

/-- A way that stays below its start has a trail without levels up. -/
theorem StaysBelow.up_trail (h : StaysBelow l) (hroot : .root ∉ l) :
    (trail l).up = 0 ∧ l.countP Part.isName = (trail l).down.length + l.count .parent := by
  induction l using List.reverseRecOn with
  | nil => exact ⟨rfl, rfl⟩
  | append_singleton l part ih =>
    rw [List.mem_append, not_or, List.mem_singleton] at hroot
    obtain ⟨hup, hlength⟩ := ih (h.of_prefix (List.prefix_append l [part])) hroot.1
    have hcount := h _ List.prefix_rfl
    rw [List.count_append, List.countP_append] at hcount ⊢
    rw [trail_concat]
    cases part with
    | root => exact absurd rfl hroot.2
    | current => simp [Trail.step, Part.isName, hup, hlength]
    | name value =>
      simp [Trail.step, Part.isName, hup, hlength]
      omega
    | parent =>
      -- there is a name for the double dots to take back
      have hdown : (trail l).down ≠ [] := by
        rintro hnil
        simp [Part.isName, hlength, hnil] at hcount
      have hpos := List.length_pos_iff.2 hdown
      simp [Trail.step, Part.isName, hup, hlength, hdown]
      omega

/-! ## Cleaned paths from the top -/

/-- **What a cleaned path is** if its way from the top never leads above it: the root and the names of
its place. -/
theorem parts_clean_of_up (hp : p.parts = .root :: l) (hup : (trail l).up = 0) :
    p.clean.parts = .root :: (walk [] l).map .name := by
  obtain ⟨m, hparts, hroot, hnames⟩ := exists_parts p
  obtain rfl : m = l := by
    rw [hp] at hparts
    split at hparts
    · exact (List.cons.inj hparts).2.symm
    · exact absurd (List.nil_append m ▸ hparts ▸ List.mem_cons_self) hroot
  rw [parts_clean (.inr rfl) hp hroot hnames, walk_eq_lead [] hroot, Trail.parts, Trail.lead, hup]
  rfl

/-- A path from the top straight down to a location: no part of it leads up. -/
structure LeadsDown (p : Path) (l : Location) : Prop where
  /-- it starts at the root -/
  absolute : p.isAbsolute = true
  /-- it has no double dots -/
  noParent : .parent ∉ p.parts
  /-- it leads to the location -/
  leads : walk [] p.parts = l

theorem root_notMem (segments : List String) : .root ∉ segments.filterMap partOf? := by
  intro hroot
  obtain ⟨segment, -, hpart⟩ := List.mem_filterMap.1 hroot
  rw [partOf?] at hpart
  split at hpart
  · cases hpart
  · split at hpart <;> cases hpart

/-- Stretches that lead nowhere up spell names. -/
theorem exists_names {segments : List String} (h : .parent ∉ segments.filterMap partOf?) :
    ∃ names : List String, segments.filterMap partOf? = names.map .name := by
  induction segments with
  | nil => exact ⟨[], rfl⟩
  | cons segment segments ih =>
    rw [List.filterMap_cons] at h ⊢
    rcases hpart : partOf? segment with _ | part
    · rw [hpart] at h
      exact ih h
    · rw [hpart, List.mem_cons, not_or] at h
      obtain ⟨names, hnames⟩ := ih h.2
      rw [partOf?] at hpart
      split at hpart
      · cases hpart
      · split at hpart
        · cases hpart
          exact absurd rfl h.1
        · cases hpart
          exact ⟨segment :: names, by rw [hnames]; rfl⟩

theorem LeadsDown.parts_eq {l : Location} (h : LeadsDown p l) : p.parts = .root :: l.map .name := by
  have hparts : p.parts = .root :: p.body.filterMap partOf? := by
    rw [parts, head?, if_pos h.absolute]
    rfl
  obtain ⟨names, hnames⟩ := exists_names fun hup => h.noParent (hparts ▸ List.mem_cons_of_mem _ hup)
  rw [hnames] at hparts
  have hleads : walk [] p.parts = names := by
    rw [hparts]
    exact walk_names [] names
  rw [hparts, ← h.leads, hleads]

theorem LeadsDown.text_ne {l : Location} (h : LeadsDown p l) : p.text ≠ "" := by
  intro htext
  have hparts := h.parts_eq
  rw [parts_of_empty htext] at hparts
  cases hparts

/-- Names put behind a path lead on from where it leads. -/
theorem LeadsDown.parts_foldl_child {l : Location} (h : LeadsDown p l)
    (hnames : ∀ name ∈ names, IsFileName name) :
    (names.foldl child p).parts = .root :: (l ++ names).map .name := by
  induction names using List.reverseRecOn with
  | nil => rw [List.foldl_nil, h.parts_eq, List.append_nil]
  | append_singleton names name ih =>
    have hname := hnames name (by simp)
    rw [List.foldl_concat, parts_child hname.plain.1 (.inr hname.noDots.1),
      ih fun other hother => hnames other (List.mem_append_left _ hother),
      partOf?_of_isFileName hname]
    simp

/-- There is nothing to clean in a path that leads straight down. -/
theorem parts_clean_of_names {l : Location} (hp : p.parts = .root :: l.map .name) :
    p.clean.parts = p.parts := by
  have hbelow : StaysBelow (l.map .name) := by
    have hnil : StaysBelow [] := fun m hm => by simp [List.prefix_nil.1 hm]
    simpa using hnil.of_names l
  rw [parts_clean_of_up hp (hbelow.up_trail (by simp)).1, walk_names, hp, List.nil_append]

end Path

/-! ## The files of the index -/

namespace Disk

variable {d : Disk} {p dir source : Path} {k : Location} {names : List String}

/-- Names below a path lead on from where the path leads. -/
theorem exists_of_locate?_foldl_child (htext : p.text ≠ "")
    (hnames : ∀ name ∈ names, IsFileName name) (h : d.locate? (names.foldl Path.child p) = some k) :
    ∃ l, d.locate? p = some l ∧ k = l ++ names := by
  induction names using List.reverseRecOn generalizing k with
  | nil => exact ⟨k, h, (List.append_nil k).symm⟩
  | append_singleton names name ih =>
    have hname := hnames name (by simp)
    have hfront : ∀ other ∈ names, IsFileName other :=
      fun other hother => hnames other (List.mem_append_left _ hother)
    rw [List.foldl_concat] at h
    obtain ⟨dir, hdir, hisdir⟩ :=
      locate?_of_child (Path.head?_foldl_child htext hfront).2 hname.plain.1 h
    obtain ⟨l, hl, rfl⟩ := ih hfront hdir
    rw [locate?_child hdir hisdir hname] at h
    exact ⟨l, hl, by rw [← Option.some.inj h, List.append_assoc]⟩

/-- A walk finds the files whose paths are made of the path of the directory and names. -/
theorem mem_filesUnder_iff (htext : dir.text ≠ "") : source ∈ d.filesUnder dir ↔
    ∃ names : List String, (∀ name ∈ names, IsFileName name) ∧
      d.isFile (names.foldl Path.child dir) = true ∧ source = names.foldl Path.child dir := by
  constructor
  · intro h
    rcases hl : d.locate? dir with _ | l
    · rw [filesUnder, hl] at h
      exact absurd h List.not_mem_nil
    · rw [filesUnder_eq hl] at h
      obtain ⟨names, hnames, rfl⟩ := List.mem_map.1 h
      obtain ⟨content, hcontent⟩ := FileTree.mem_namesBelow.1 hnames
      refine ⟨names, FileTree.isFileName_of_content? hcontent, ?_, rfl⟩
      rw [isFile, read?_eq, locate?_foldl_child hl (FileTree.get?_ne_none_of_content? hcontent),
        Option.bind_some, hcontent]
      rfl
  · rintro ⟨names, hnames, hfile, rfl⟩
    rw [isFile, read?_eq, Option.isSome_iff_exists] at hfile
    obtain ⟨content, hcontent⟩ := hfile
    obtain ⟨k, hk, hcontent⟩ := Option.bind_eq_some_iff.1 hcontent
    obtain ⟨l, hl, rfl⟩ := exists_of_locate?_foldl_child htext hnames hk
    rw [filesUnder_eq hl]
    exact List.mem_map_of_mem (FileTree.mem_namesBelow.2 ⟨content, hcontent⟩)

end Disk

/-- What a relation of lists says of each item and of what stands beside it. -/
theorem eq_map_of_forall₂ {α β : Type} {R : α → β → Prop} {P : α → Prop} {f : α → β} {xs : List α}
    {ys : List β} (h : List.Forall₂ R xs ys) (hR : ∀ x y, R x y → P x ∧ y = f x) :
    (∀ x ∈ xs, P x) ∧ ys = xs.map f := by
  induction h with
  | nil => simp
  | cons hone _ ih =>
    obtain ⟨hP, rfl⟩ := hR _ _ hone
    exact ⟨List.forall_mem_cons.2 ⟨hP, ih.1⟩, by rw [ih.2, List.map_cons]⟩

namespace AssetIndex

variable {d : Disk} {assets root p : Path} {selects : String → Bool} {schedule : Schedule Path}
  {index : AssetIndex} {l : Location} {text : String} {names : List String}

/-- A style sheet among the assets: a file that the filters select, told by the names that lead to it
from the directory of the assets. -/
structure IsSheet (d : Disk) (assets : Path) (selects : String → Bool) (names : List String) :
    Prop where
  /-- the names are such as a file can have -/
  named : ∀ name ∈ names, IsFileName name
  /-- they lead to a file -/
  isFile : d.isFile (names.foldl Path.child assets) = true
  /-- the filters select its path -/
  selected : selects (names.foldl Path.child assets).text = true

/-- The paths of the style sheets among the assets, in the order of a walk. -/
def sheetPaths (d : Disk) (assets : Path) (selects : String → Bool) : List Path :=
  (d.filesUnder assets).filter fun p => selects p.text

theorem mem_sheetPaths (htext : assets.text ≠ "") : p ∈ sheetPaths d assets selects ↔
    ∃ names, IsSheet d assets selects names ∧ p = names.foldl Path.child assets := by
  rw [sheetPaths, List.mem_filter, Disk.mem_filesUnder_iff htext]
  constructor
  · rintro ⟨⟨names, hnames, hfile, rfl⟩, hselected⟩
    exact ⟨names, ⟨hnames, hfile, hselected⟩, rfl⟩
  · rintro ⟨names, ⟨hnames, hfile, hselected⟩, rfl⟩
    exact ⟨⟨names, hnames, hfile, rfl⟩, hselected⟩

/-- An index that could be loaded has all style sheets with their texts. -/
theorem files_of_load (h : load d assets selects schedule = .ok index) :
    (∀ p ∈ sheetPaths d assets selects, ∃ text, d.readText? p = some text) ∧
      index.files = (sheetPaths d assets selects).map fun p => (p.clean, (d.readText? p).getD "") := by
  obtain ⟨files, hfiles, h⟩ := bind_eq_ok h
  cases h
  refine eq_map_of_forall₂ (mapM_eq_ok (Schedule.collect_eq_ok.1 hfiles)) fun p entry hentry => ?_
  split at hentry
  · next text htext =>
    cases hentry
    exact ⟨⟨text, htext⟩, by rw [htext, Option.getD_some]⟩
  · cases hentry

/-- The key of a style sheet is the root with the names of its location. -/
theorem parts_key (hassets : Path.LeadsDown assets l) (h : IsSheet d assets selects names) :
    (names.foldl Path.child assets).clean.parts = .root :: (l ++ names).map .name := by
  have hparts := hassets.parts_foldl_child h.named
  rw [Path.parts_clean_of_names hparts, hparts]

theorem eq_of_parts {k : Location}
    (h : Path.Part.root :: k.map .name = Path.Part.root :: l.map .name) : k = l := by
  have hinjective : Function.Injective Path.Part.name := fun _ _ heq => Path.Part.name.inj heq
  exact List.map_injective_iff.2 hinjective (List.cons.inj h).2

/-- Different style sheets have different keys. -/
theorem nodup_keys (hassets : Path.LeadsDown assets l) (h : load d assets selects schedule = .ok index) :
    (index.files.map fun entry => entry.1.parts).Nodup := by
  have hpaths : (sheetPaths d assets selects).Nodup := by
    rcases hl : d.locate? assets with _ | k
    · simp [sheetPaths, Disk.filesUnder, hl]
    · refine List.Nodup.filter _ ?_
      rw [Disk.filesUnder_eq hl]
      refine (d.tree.nodup_namesBelow k).map_on fun names hnames names' hnames' heq => ?_
      obtain ⟨content, hcontent⟩ := FileTree.mem_namesBelow.1 hnames
      obtain ⟨content', hcontent'⟩ := FileTree.mem_namesBelow.1 hnames'
      have hparts := congrArg Path.parts heq
      rw [hassets.parts_foldl_child (FileTree.isFileName_of_content? hcontent),
        hassets.parts_foldl_child (FileTree.isFileName_of_content? hcontent')] at hparts
      exact List.append_cancel_left (eq_of_parts hparts)
  rw [(files_of_load h).2, List.map_map]
  refine hpaths.map_on fun p hp q hq heq => ?_
  obtain ⟨names, hnames, rfl⟩ := (mem_sheetPaths hassets.text_ne).1 hp
  obtain ⟨names', hnames', rfl⟩ := (mem_sheetPaths hassets.text_ne).1 hq
  simp only [Function.comp_apply] at heq
  rw [parts_key hassets hnames, parts_key hassets hnames'] at heq
  rw [List.append_cancel_left (eq_of_parts heq)]

theorem mem_files (hassets : Path.LeadsDown assets l) (h : load d assets selects schedule = .ok index)
    {parts : List Path.Part} : (∃ key, (key, text) ∈ index.files ∧ key.parts = parts) ↔
      ∃ names, IsSheet d assets selects names ∧
        d.readText? (names.foldl Path.child assets) = some text ∧
          parts = .root :: (l ++ names).map .name := by
  obtain ⟨hread, hfiles⟩ := files_of_load h
  rw [hfiles]
  constructor
  · rintro ⟨key, hkey, rfl⟩
    obtain ⟨p, hp, heq⟩ := List.mem_map.1 hkey
    obtain ⟨rfl, rfl⟩ := Prod.mk.inj heq
    obtain ⟨text, htext⟩ := hread p hp
    obtain ⟨names, hnames, rfl⟩ := (mem_sheetPaths hassets.text_ne).1 hp
    exact ⟨names, hnames, by rw [htext, Option.getD_some], parts_key hassets hnames⟩
  · rintro ⟨names, hnames, htext, rfl⟩
    refine ⟨_, List.mem_map.2 ⟨_, (mem_sheetPaths hassets.text_ne).2 ⟨names, hnames, rfl⟩, ?_⟩,
      parts_key hassets hnames⟩
    rw [htext, Option.getD_some]

/-! ## Looking up -/

/-- What is looked up is found under its parts, if no two keys have the same. -/
theorem get?_eq_some (hnodup : (index.files.map fun entry => entry.1.parts).Nodup) :
    index.get? p = some text ↔ ∃ key, (key, text) ∈ index.files ∧ key.parts = p.clean.parts := by
  rw [get?, Option.map_eq_some_iff]
  constructor
  · rintro ⟨⟨key, text'⟩, hfind, rfl⟩
    have hsame := List.find?_some hfind
    exact ⟨key, List.mem_reverse.1 (List.mem_of_find?_eq_some hfind), of_decide_eq_true hsame⟩
  · rintro ⟨key, hkey, hparts⟩
    rcases hfind : index.files.reverse.find? (fun entry => entry.1.same p.clean) with _ | entry
    · have hnot := List.find?_eq_none.1 hfind _ (List.mem_reverse.2 hkey)
      exact absurd (decide_eq_true hparts) hnot
    · have hmem := List.mem_reverse.1 (List.mem_of_find?_eq_some hfind)
      have hsame := List.find?_some hfind
      have heq := List.inj_on_of_nodup_map hnodup hmem hkey
        ((of_decide_eq_true hsame).trans hparts.symm)
      exact ⟨entry, hfind, by rw [heq]⟩

/-- A style reference as a path. Slashes in front of it do not count. -/
def reference (style : String) : Path := ⟨String.ofList (style.toList.dropWhile (· = '/'))⟩

theorem isAbsolute_reference (style : String) : (reference style).isAbsolute = false := by
  rw [Path.isAbsolute, reference, String.toList_ofList, decide_eq_false_iff_not]
  intro hhead
  have hfirst := List.head?_dropWhile_not (· = '/') style.toList
  rw [hhead] at hfirst
  simp at hfirst

/-- A relative path is its stretches, perhaps behind a single dot. -/
theorem parts_of_relative (h : p.isAbsolute = false) :
    p.parts = p.segments.filterMap Path.partOf? ∨
      p.parts = .current :: p.segments.filterMap Path.partOf? := by
  rw [Path.parts, Path.body, Path.head?, h, if_neg Bool.false_ne_true]
  split
  · next hdot =>
    right
    obtain ⟨rest, hrest⟩ := List.head?_eq_some_iff.1 hdot
    have hidle : Path.partOf? "." = none := by decide
    rw [hrest, List.filterMap_cons, hidle]
    rfl
  · exact .inl rfl

/-- Behind the root of the project a reference that stays below it has a key: the root with the names
of the place to which it leads. -/
theorem parts_clean_reference (hroot : Path.LeadsDown root l) {style : String}
    (hbelow : Path.StaysBelow (reference style).parts) :
    (root.join (reference style)).clean.parts =
      .root :: (Path.walk l (reference style).parts).map .name := by
  have hrelative := isAbsolute_reference style
  have hparts := Path.parts_join hroot.text_ne hrelative
  rw [hroot.parts_eq, List.cons_append] at hparts
  have hway : Path.walk l (reference style).parts =
      Path.walk l ((reference style).segments.filterMap Path.partOf?) := by
    rcases parts_of_relative hrelative with heq | heq
    · rw [heq]
    · rw [heq, Path.walk_current]
  have hstays : Path.StaysBelow ((reference style).segments.filterMap Path.partOf?) := by
    rcases parts_of_relative hrelative with heq | heq
    · exact heq ▸ hbelow
    · exact (heq ▸ hbelow).of_current
  have hup := (hstays.of_names l).up_trail (by simpa using Path.root_notMem _)
  rw [Path.parts_clean_of_up hparts hup.1, Path.walk_append, Path.walk_names, List.nil_append, hway]

/-- **References and the index.** Below a root and a directory of assets that lead straight down, the
index has one entry for each style sheet, under the root with the names of its location. A reference
that stays below the root is resolved to the text of the style sheet to which its parts lead, and to
nothing only if they lead to none. -/
theorem references_find_sheets {below : Location} (hroot : Path.LeadsDown root l)
    (hassets : Path.LeadsDown assets (l ++ below)) (h : load d assets selects schedule = .ok index) :
    (∀ style, Path.StaysBelow (reference style).parts →
      (∀ text, index.resolve? root style = some text ↔
        ∃ names, Path.walk l (reference style).parts = l ++ below ++ names ∧
          IsSheet d assets selects names ∧
            d.readText? (names.foldl Path.child assets) = some text) ∧
      (index.resolve? root style = none ↔
        ¬∃ names, Path.walk l (reference style).parts = l ++ below ++ names ∧
          IsSheet d assets selects names)) ∧
    (index.files.map fun entry => entry.1.parts).Nodup ∧
    ∀ parts, (parts ∈ index.files.map fun entry => entry.1.parts) ↔
      ∃ names, IsSheet d assets selects names ∧
        parts = .root :: (l ++ below ++ names).map .name := by
  have hnodup := nodup_keys hassets h
  have hread {names : List String} (hsheet : IsSheet d assets selects names) :
      ∃ text, d.readText? (names.foldl Path.child assets) = some text :=
    (files_of_load h).1 _ ((mem_sheetPaths hassets.text_ne).2 ⟨names, hsheet, rfl⟩)
  have hsome : ∀ style, Path.StaysBelow (reference style).parts → ∀ text,
      (index.resolve? root style = some text ↔
        ∃ names, Path.walk l (reference style).parts = l ++ below ++ names ∧
          IsSheet d assets selects names ∧
            d.readText? (names.foldl Path.child assets) = some text) := by
    intro style hbelow text
    rw [resolve?, ← reference, get?_eq_some hnodup, parts_clean_reference hroot hbelow,
      mem_files hassets h]
    constructor
    · rintro ⟨names, hsheet, htext, heq⟩
      exact ⟨names, eq_of_parts heq, hsheet, htext⟩
    · rintro ⟨names, heq, hsheet, htext⟩
      exact ⟨names, hsheet, htext, by rw [heq]⟩
  refine ⟨fun style hbelow => ⟨hsome style hbelow, ?_⟩, hnodup, fun parts => ?_⟩
  · constructor
    · rintro hnone ⟨names, heq, hsheet⟩
      obtain ⟨text, htext⟩ := hread hsheet
      rw [(hsome style hbelow text).2 ⟨names, heq, hsheet, htext⟩] at hnone
      cases hnone
    · intro hnot
      rw [Option.eq_none_iff_forall_ne_some]
      intro text htext
      obtain ⟨names, heq, hsheet, -⟩ := (hsome style hbelow text).1 htext
      exact hnot ⟨names, heq, hsheet⟩
  · rw [List.mem_map]
    constructor
    · rintro ⟨⟨key, text⟩, hentry, rfl⟩
      obtain ⟨names, hsheet, -, heq⟩ := (mem_files hassets h).1 ⟨key, hentry, rfl⟩
      exact ⟨names, hsheet, heq⟩
    · rintro ⟨names, hsheet, rfl⟩
      obtain ⟨text, htext⟩ := hread hsheet
      obtain ⟨key, hkey, hparts⟩ := (mem_files hassets h).2 ⟨names, hsheet, htext, rfl⟩
      exact ⟨(key, text), hkey, hparts⟩

/-- A project in `srv/site` with a style sheet in a directory of its assets, and with a picture. -/
def themed : Disk :=
  let put (t? : Option FileTree) (dir : Location) (name : String) (entry : Entry) :=
    t?.bind fun t => t.put? dir name entry
  let site := put (put (some .empty) [] "srv" .directory) ["srv"] "site" .directory
  let assets := put site ["srv", "site"] "assets" .directory
  let theme := put assets ["srv", "site", "assets"] "theme" .directory
  let dark := put theme ["srv", "site", "assets", "theme"] "dark.css" (.file ".dark{}".toUTF8)
  ⟨(put dark ["srv", "site", "assets"] "logo.svg" (.file "<svg/>".toUTF8)).getD .empty, []⟩

/-- A reference with a detour through the name of another directory. -/
theorem references_find_sheets_dark :
    Path.LeadsDown ⟨"/srv//site"⟩ ["srv", "site"] ∧
      Path.LeadsDown ⟨"/srv/site/assets/"⟩ (["srv", "site"] ++ ["assets"]) ∧
      Path.StaysBelow (reference "/./assets//x/../theme/dark.css").parts ∧
      IsSheet themed ⟨"/srv/site/assets/"⟩ Pattern.sheetName.isIn ["theme", "dark.css"] ∧
      ∃ index, load themed ⟨"/srv/site/assets/"⟩ Pattern.sheetName.isIn = .ok index ∧
        index.resolve? ⟨"/srv//site"⟩ "/./assets//x/../theme/dark.css" = some ".dark{}" := by
  have hroot : Path.LeadsDown ⟨"/srv//site"⟩ ["srv", "site"] := ⟨by decide, by decide, by decide⟩
  have hassets : Path.LeadsDown ⟨"/srv/site/assets/"⟩ (["srv", "site"] ++ ["assets"]) :=
    ⟨by decide, by decide, by decide⟩
  have hbelow : Path.StaysBelow (reference "/./assets//x/../theme/dark.css").parts := by
    decide +kernel
  have hsheet : IsSheet themed ⟨"/srv/site/assets/"⟩ Pattern.sheetName.isIn ["theme", "dark.css"] :=
    ⟨by decide, by decide +kernel, by decide +kernel⟩
  have hload : ((load themed ⟨"/srv/site/assets/"⟩ Pattern.sheetName.isIn).toOption.map
      fun index => index.files) = some [(⟨"/srv/site/assets/theme/dark.css"⟩, ".dark{}")] := by
    decide +kernel
  obtain ⟨index, hindex, -⟩ := Option.map_eq_some_iff.1 hload
  have hfinds := references_find_sheets hroot hassets (eq_ok_of_toOption hindex)
  exact ⟨hroot, hassets, hbelow, hsheet, index, eq_ok_of_toOption hindex,
    ((hfinds.1 _ hbelow).1 _).2 ⟨_, by decide +kernel, hsheet, by decide +kernel⟩⟩

end AssetIndex

end StaticSite
