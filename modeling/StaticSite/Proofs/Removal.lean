import Mathlib.Data.List.DropRight
import StaticSite.Proofs.AnyOrder
import StaticSite.Proofs.Untouched

/-!
# Taking a directory away by its path

A directory is emptied first, and then its path is followed once more to take the directory itself out
of the one above. What comes of that depends on the path and on what is left then
(`removeDirectory_congr`). It fails only where the directory above can still be reached and the path
does not end in a name: a single dot does not do, nor do double dots if all of the way only leads up
from where the path starts (`removeDirectory_succeeds`). The directory stays if the way to it leads
through it; if the way lies outside, success takes it away (`removeDirectory_eq_prune`).
-/

namespace StaticSite

namespace Path

variable {p : Path} {here : Location}

/-! ## Where a path ends -/

/-- The stretches of a path are followed by empty ones. -/
theorem exists_segments_eq (p : Path) :
    ∃ rest, p.segments = p.stretches ++ rest ∧ ∀ s ∈ rest, s = "" :=
  ⟨p.segments.rtakeWhile (· = ""), List.rdropWhile_append_rtakeWhile.symm,
    fun _ hs => by simpa using List.mem_rtakeWhile_imp hs⟩

theorem foldl_lead_of_empty {rest : List String} (h : ∀ s ∈ rest, s = "") (l : Location) :
    rest.foldl lead l = l := by
  induction rest with
  | nil => rfl
  | cons s rest ih =>
    rw [List.foldl_cons, h s List.mem_cons_self]
    exact ih fun s hs => h s (List.mem_cons_of_mem _ hs)

/-- A path leads to where its stretches do. -/
theorem place_eq_stretches (here : Location) (p : Path) : p.place here = p.placeOf here p.stretches := by
  obtain ⟨rest, hrest, hempty⟩ := p.exists_segments_eq
  rw [place, placeOf, placeOf, hrest, List.foldl_append, foldl_lead_of_empty hempty]

theorem stretches_isPrefix (p : Path) : p.stretches <+: p.segments := by
  obtain ⟨rest, hrest, -⟩ := p.exists_segments_eq
  exact ⟨rest, hrest.symm⟩

/-- The last stretch of a path that does not end in a name. -/
theorem stretches_cases (h : p.endsInName = false) : p.stretches = [] ∨
    ∃ way last, p.stretches = way ++ [last] ∧ (last = "." ∨ last = "..") := by
  obtain hnil | ⟨way, last, hlast⟩ := p.stretches.eq_nil_or_concat'
  · exact .inl hnil
  · rw [endsInName, hlast, List.getLast?_concat, Option.any_some, Bool.and_eq_false_iff,
      bne_eq_false_iff_eq, bne_eq_false_iff_eq] at h
    exact .inr ⟨way, last, hlast, h⟩

/-! ## Ways up and ways on -/

/-- Dots only lead up. -/
theorem foldl_lead_of_dots {way : List String} (h : ∀ s ∈ way, isDots s = true) (l : Location) :
    way.foldl lead l <+: l := by
  induction way generalizing l with
  | nil => exact List.prefix_rfl
  | cons s way ih =>
    have hs := h s List.mem_cons_self
    have hup : lead l s <+: l := by
      rw [isDots, Bool.or_eq_true] at hs
      rw [lead]
      split
      · exact List.prefix_rfl
      · next hidle =>
        rw [if_pos (beq_iff_eq.1 (hs.resolve_left hidle))]
        exact List.dropLast_prefix l
    exact (ih (fun s hs => h s (List.mem_cons_of_mem _ hs)) _).trans hup

/-- Without double dots, a path only leads on. -/
theorem prefix_foldl_lead {segments : List String} (h : ".." ∉ segments) (l : Location) :
    l <+: segments.foldl lead l := by
  induction segments generalizing l with
  | nil => exact List.prefix_rfl
  | cons segment segments ih =>
    rw [List.mem_cons, not_or] at h
    obtain ⟨names, hlead, -⟩ := lead_of_ne_dots (Ne.symm h.1)
    rw [List.foldl_cons, hlead]
    exact (List.prefix_append l names).trans (ih h.2 _)

/-- Where a path leads that has no double dots, all of its way lies above. -/
theorem placeOf_prefix_of_plain (h : ".." ∉ p.segments) (here : Location) {way : List String}
    (hway : way <+: p.segments) : p.placeOf here way <+: p.place here := by
  obtain ⟨rest, hrest⟩ := hway
  rw [place, placeOf, placeOf, ← hrest, List.foldl_append]
  refine prefix_foldl_lead (fun hmem => h ?_) _
  rw [← hrest]
  exact List.mem_append_right _ hmem

/-- The way to what a path names does not lead through what lies below that. -/
def Outside (here : Location) (p : Path) : Prop :=
  ∀ way, way <+: p.stretches.dropLast → ¬ Below (p.place here) (p.placeOf here way)

theorem outside_of_plain (h : ".." ∉ p.segments) (here : Location) : p.Outside here := by
  intro way hway hbelow
  have habove := placeOf_prefix_of_plain h here
    (hway.trans ((List.dropLast_prefix _).trans p.stretches_isPrefix))
  exact hbelow.2 (habove.eq_of_length_le hbelow.1.length_le)

end Path

namespace Disk

variable {d e : Disk} {p : Path} {l : Location} {t : FileTree} {segments way : List String}

/-- A way without double dots can be followed to each directory that it leads to. -/
theorem locate?_of_isDirectory (htext : p.text ≠ "") (h : ".." ∉ p.segments)
    (hdir : d.tree.isDirectory (p.place d.here) = true) : d.locate? p = some (p.place d.here) := by
  rw [locate?, if_neg htext]
  exact foldlM_follow?_of_directories fun way hway =>
    FileTree.isDirectory_above hdir (Path.placeOf_prefix_of_plain h d.here hway)

/-- All that is passed on a way that can be followed is a directory. -/
theorem foldlM_follow?_of_isPrefix (h : segments.foldlM (follow? t) l ≠ none) (hway : way <+: segments) :
    way.foldlM (follow? t) l = some (way.foldl Path.lead l) ∧
      (way ≠ segments → t.isDirectory (way.foldl Path.lead l) = true) := by
  obtain ⟨rest, rfl⟩ := hway
  rw [List.foldlM_append, Option.bind_eq_bind] at h
  rcases hfirst : way.foldlM (follow? t) l with _ | m
  · rw [hfirst] at h
    exact absurd rfl h
  · obtain rfl := foldlM_follow? hfirst
    refine ⟨rfl, fun hne => ?_⟩
    rcases rest with _ | ⟨segment, rest⟩
    · exact absurd (List.append_nil _).symm hne
    · rw [hfirst, Option.bind_some, List.foldlM_cons, Option.bind_eq_bind] at h
      rcases hnext : follow? t (way.foldl Path.lead l) segment with _ | next
      · rw [hnext] at h
        exact absurd rfl h
      · exact (follow?_eq_some hnext).1

/-! ## What is done -/

theorem foldlM_of_isDirectory (h : d.isDirectory p = true) :
    p.segments.foldlM (follow? d.tree) (d.start p) = some (p.place d.here) := by
  have hl := (isDirectory_iff.1 h).1
  rwa [locate?, if_neg (text_ne_of_locate? hl)] at hl

/-- Whether the directory above is reached, if the path led somewhere before. -/
theorem reachesAbove_eq (h : d.isDirectory p = true) (t : FileTree) :
    d.reachesAbove p t =
      (p.stretches.dropLast.dropWhile Path.isDots = [] ||
        ((p.stretches.dropLast.dropWhile Path.isDots).foldlM (follow? t)
          (p.placeOf d.here (p.stretches.dropLast.takeWhile Path.isDots))).any t.isDirectory) := by
  have hsome := foldlM_of_isDirectory h
  have hway := (List.takeWhile_prefix Path.isDots).trans
    ((List.dropLast_prefix _).trans p.stretches_isPrefix)
  have hup := (foldlM_follow?_of_isPrefix (Option.ne_none_iff_exists'.2 ⟨_, hsome⟩) hway).1
  rw [reachesAbove, hup]
  rfl

/-- Two disks that have a directory come to the same when it is taken away, if they differ only in what
lies below it. -/
theorem removeDirectory_congr (hd : d.isDirectory p = true) (he : e.isDirectory p = true)
    (hhere : e.here = d.here)
    (hempty : d.tree.emptied (p.place d.here) = e.tree.emptied (p.place d.here))
    (hprune : d.tree.prune (p.place d.here) = e.tree.prune (p.place d.here)) :
    d.removeDirectory p = e.removeDirectory p := by
  rw [Site.removeDirectory_of_isDirectory hd, Site.removeDirectory_of_isDirectory he, reachesAbove_eq hd,
    reachesAbove_eq he, withTree, withTree, withTree, withTree, hhere, hempty, hprune]

/-- What the path has for the directory above is out of reach if it was in the directory that has been
emptied, and the path does not start there. -/
theorem reachesAbove_eq_false (h : d.isDirectory p = true) (hstart : ¬ p.place d.here <+: d.start p)
    (hbelow : Below (p.place d.here) (p.placeOf d.here p.stretches.dropLast)) :
    d.reachesAbove p (d.tree.emptied (p.place d.here)) = false := by
  have hsplit := List.takeWhile_append_dropWhile (p := Path.isDots) (l := p.stretches.dropLast)
  rw [reachesAbove_eq h, Bool.or_eq_false_iff, decide_eq_false_iff_not]
  refine ⟨fun hnames => hstart ?_, ?_⟩
  · rw [hnames, List.append_nil] at hsplit
    refine hbelow.1.trans ?_
    rw [← hsplit]
    exact Path.foldl_lead_of_dots (fun _ hs => List.mem_takeWhile_imp hs) _
  · rcases hnames : (p.stretches.dropLast.dropWhile Path.isDots).foldlM
      (follow? (d.tree.emptied (p.place d.here)))
      (p.placeOf d.here (p.stretches.dropLast.takeWhile Path.isDots)) with _ | m
    · rfl
    · have hm := foldlM_follow? hnames
      rw [Path.placeOf, ← List.foldl_append, hsplit] at hm
      have hnone : (d.tree.emptied (p.place d.here)).get? m = none := by
        rw [FileTree.get?_emptied, hm]
        exact if_pos hbelow
      rw [Option.any_some, FileTree.isDirectory, hnone]
      rfl

/-- **A directory can be taken away** unless its path starts in it or below it, or ends in a single
dot. -/
theorem removeDirectory_succeeds (h : d.isDirectory p = true)
    (hstart : ¬ p.place d.here <+: d.start p) (hdot : p.stretches.getLast? ≠ some ".") :
    (d.removeDirectory p).2 = true := by
  rw [Site.removeDirectory_of_isDirectory h]
  rcases hname : p.endsInName with _ | _
  · obtain hnil | ⟨way, last, hlast, rfl | rfl⟩ := Path.stretches_cases hname
    · -- the path leads nowhere
      refine absurd ?_ hstart
      rw [Path.place_eq_stretches, hnil]
      exact List.prefix_rfl
    · exact absurd (by rw [hlast, List.getLast?_concat]) hdot
    · -- the directory above lies in the one that has been emptied
      have hway : p.stretches.dropLast = way := by rw [hlast, List.dropLast_concat]
      have hplace : p.place d.here = (p.placeOf d.here way).dropLast := by
        rw [Path.place_eq_stretches, hlast, Path.placeOf, List.foldl_append]
        rfl
      have hne : p.placeOf d.here way ≠ [] := by
        intro hnil
        refine hstart ?_
        rw [hplace, hnil]
        exact List.nil_prefix
      have hbelow : Below (p.place d.here) (p.placeOf d.here way) := by
        rw [hplace]
        refine ⟨List.dropLast_prefix _, fun heq => hne ?_⟩
        have hlength := congrArg List.length heq
        rw [List.length_dropLast] at hlength
        exact List.length_eq_zero_iff.1 (by omega)
      rw [reachesAbove_eq_false h hstart (hway ▸ hbelow)]
      rfl
  · split
    · rfl
    · rfl

/-- If its way lies outside of the directory, all of it is kept. -/
theorem isDirectory_emptied (h : d.isDirectory p = true) (houtside : p.Outside d.here)
    (hway : way <+: p.stretches.dropLast) :
    (d.tree.emptied (p.place d.here)).isDirectory (p.placeOf d.here way) = true := by
  have hdir : d.tree.isDirectory (p.placeOf d.here way) = true := by
    have hsome := Option.ne_none_iff_exists'.2 ⟨_, foldlM_of_isDirectory h⟩
    have hwhole := hway.trans ((List.dropLast_prefix _).trans p.stretches_isPrefix)
    refine (foldlM_follow?_of_isPrefix hsome hwhole).2 fun heq => ?_
    -- the last stretch is not passed
    have hlast := heq ▸ hway.length_le
    have hlength := p.stretches_isPrefix.length_le
    have hpos := List.length_pos_iff.2 p.segments_ne_nil
    rw [List.length_dropLast] at hlast
    omega
  rw [FileTree.isDirectory, decide_eq_true_eq] at hdir ⊢
  rw [FileTree.get?_emptied]
  exact (if_neg (houtside way hway)).trans hdir

theorem reachesAbove_of_outside (h : d.isDirectory p = true) (houtside : p.Outside d.here) :
    d.reachesAbove p (d.tree.emptied (p.place d.here)) = true := by
  have hsplit := List.takeWhile_append_dropWhile (p := Path.isDots) (l := p.stretches.dropLast)
  have hnames : ∀ way, way <+: p.stretches.dropLast.dropWhile Path.isDots →
      (d.tree.emptied (p.place d.here)).isDirectory (way.foldl Path.lead
        (p.placeOf d.here (p.stretches.dropLast.takeWhile Path.isDots))) = true := by
    intro way hway
    rw [Path.placeOf, ← List.foldl_append]
    refine isDirectory_emptied h houtside ?_
    conv_rhs => rw [← hsplit]
    exact (List.prefix_append_right_inj _).2 hway
  rw [reachesAbove_eq h, foldlM_follow?_of_directories hnames, Option.any_some, Path.placeOf, ← List.foldl_append, hsplit,
    Bool.or_eq_true]
  exact .inr (isDirectory_emptied h houtside List.prefix_rfl)

/-- If its way lies outside of it, a directory is gone when it has been taken away. -/
theorem removeDirectory_eq_prune (h : d.isDirectory p = true) (houtside : p.Outside d.here)
    (hsuccess : (d.removeDirectory p).2 = true) :
    d.removeDirectory p = (d.withTree (d.tree.prune (p.place d.here)), true) := by
  rw [Site.removeDirectory_of_isDirectory h, reachesAbove_of_outside h houtside] at hsuccess ⊢
  split
  · next hnot => cases hnot
  · split
    · rfl
    · next hname =>
      rw [if_neg hname] at hsuccess
      cases hsuccess

end Disk

end StaticSite
