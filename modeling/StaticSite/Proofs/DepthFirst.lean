import Mathlib.Data.List.Chain
import Mathlib.Data.List.Nodup
import Mathlib.Logic.Relation
import StaticSite.Component.Graph

/-!
# What the depth-first walk finds

Two things can come of the walk, and both are what they seem: an order in which every vertex stands
behind all that it depends on (`Sorted`), or a closed way along dependencies (`IsCircle`). A graph
that can be sorted has no circle, so the walk also decides whether there is one.

The reason is an invariant of every turn, `Walk.Inv`: the active vertices are those on the stack and
the finished ones those in the order, each once; the order is sorted; and each frame depends on the
one above it, while all else that it has looked at is finished (`Stacked`).
-/

namespace StaticSite.Graph

open Relation (TransGen)

variable {g : Graph}

/-- A vertex depends on another one. -/
def DependsOn (g : Graph) (v d : Nat) : Prop := d ∈ g.next v

/-- No vertex depends on itself, be it through others. -/
def Acyclic (g : Graph) : Prop := ∀ v, ¬ TransGen g.DependsOn v v

/-- A closed way along dependencies that meets no vertex twice but the first one, at its end. -/
structure IsCircle (g : Graph) (way : List Nat) : Prop where
  /-- the way leads somewhere -/
  two_le : 2 ≤ way.length
  /-- it ends where it starts -/
  closed : way.head? = way.getLast?
  /-- no other vertex is met twice -/
  nodup : way.dropLast.Nodup
  /-- every vertex on it depends on the one that follows -/
  chain : way.IsChain g.DependsOn

/-- A list in which every vertex stands behind those that it depends on. -/
inductive Sorted (g : Graph) : List Nat → Prop where
  /-- the empty list -/
  | nil : Sorted g []
  /-- one more vertex, when all that it depends on is there -/
  | concat {order : List Nat} {v : Nat} (before : Sorted g order)
      (met : ∀ d ∈ g.next v, d < g.size → d ∈ order) : Sorted g (order ++ [v])

theorem DependsOn.lt_size {v d : Nat} (h : g.DependsOn v d) : v < g.size := by
  by_contra hv
  rw [DependsOn, next, List.getElem?_eq_none (Nat.le_of_not_lt hv)] at h
  exact List.not_mem_nil h

/-! ## Circles and orders exclude each other -/

/-- Whoever goes around a circle comes back. -/
theorem IsCircle.not_acyclic {way : List Nat} (h : g.IsCircle way) : ¬ g.Acyclic := by
  obtain ⟨htwo, hclosed, -, hchain⟩ := h
  cases way with
  | nil => simp at htwo
  | cons v rest =>
    have hne : rest ≠ [] := by
      rintro rfl
      simp at htwo
    have hlast : v ∈ rest := by
      rw [List.head?_cons, List.getLast?_cons, Option.some.injEq] at hclosed
      rw [hclosed, List.getLast?_eq_some_getLast hne]
      exact List.getLast_mem hne
    have hpairs := List.isChain_iff_pairwise.1 (hchain.imp fun _ _ => TransGen.single)
    exact fun hacyclic => hacyclic v ((List.pairwise_cons.1 hpairs).1 v hlast)

/-- A circle passes through vertices of the graph only. -/
theorem IsCircle.lt_size {way : List Nat} (h : g.IsCircle way) {v : Nat} (hv : v ∈ way) :
    v < g.size := by
  have hnext := List.isChain_iff_getElem.1 h.chain
  obtain ⟨i, hi, rfl⟩ := List.getElem_of_mem hv
  by_cases hlast : i + 1 < way.length
  · exact DependsOn.lt_size (hnext i hlast)
  · -- the last vertex is the first one, and that one has a successor
    have htwo := h.two_le
    have hsame := h.closed
    rw [List.head?_eq_getElem?, List.getLast?_eq_getElem?,
      List.getElem?_eq_getElem (by omega : 0 < way.length),
      List.getElem?_eq_getElem (by omega : way.length - 1 < way.length), Option.some.injEq] at hsame
    have hi' : i = way.length - 1 := by omega
    subst hi'
    rw [← hsame]
    exact DependsOn.lt_size (hnext 0 (by omega))

/-- With a vertex, a sorted list has all that it depends on. -/
theorem Sorted.mem_of_dependsOn {order : List Nat} (h : g.Sorted order) {v d : Nat}
    (hv : v ∈ order) (hd : g.DependsOn v d) (hlt : d < g.size) : d ∈ order := by
  induction h with
  | nil => exact absurd hv List.not_mem_nil
  | concat _ hmet ih =>
    apply List.mem_append_left
    rcases List.mem_append.1 hv with hv | hv
    · exact ih hv
    · rw [List.mem_singleton.1 hv] at hd
      exact hmet d hd hlt

/-- What a vertex of a sorted list depends on stands before it. -/
theorem Sorted.idxOf_lt {order : List Nat} (h : g.Sorted order) (hnodup : order.Nodup) {v d : Nat}
    (hv : v ∈ order) (hd : g.DependsOn v d) (hlt : d < g.size) : order.idxOf d < order.idxOf v := by
  induction h with
  | nil => exact absurd hv List.not_mem_nil
  | @concat order u hbefore hmet ih =>
    rw [List.nodup_append] at hnodup
    obtain ⟨hnodup, -, hnew⟩ := hnodup
    by_cases hu : v ∈ order
    · have hd' := hbefore.mem_of_dependsOn hu hd hlt
      rw [List.idxOf_append_of_mem hu, List.idxOf_append_of_mem hd']
      exact ih hnodup hu
    · obtain rfl : v = u := by simpa [hu] using hv
      have hd' := hmet d hd hlt
      rw [List.idxOf_append_of_mem hd', List.idxOf_append_of_notMem hu]
      exact Nat.lt_add_right _ (List.idxOf_lt_length_of_mem hd')

/-- A graph that can be sorted has no circle: places in the order fall along dependencies. -/
theorem Sorted.acyclic {order : List Nat} (h : g.Sorted order) (hnodup : order.Nodup)
    (hall : ∀ v, v < g.size → v ∈ order) : g.Acyclic := by
  have hfall : ∀ {v w : Nat}, TransGen g.DependsOn v w → w < g.size →
      order.idxOf w < order.idxOf v := by
    intro v w hvw hw
    induction hvw using TransGen.head_induction_on with
    | single hd => exact h.idxOf_lt hnodup (hall _ hd.lt_size) hd hw
    | head hd hrest ih =>
      obtain ⟨u, hu, -⟩ := TransGen.head'_iff.1 hrest
      exact ih.trans (h.idxOf_lt hnodup (hall _ hd.lt_size) hd hu.lt_size)
  intro v hv
  obtain ⟨u, hu, -⟩ := TransGen.head'_iff.1 hv
  exact Nat.lt_irrefl _ (hfall hv hu.lt_size)

/-! ## The stack -/

/-- A stack of frames below a vertex, if there is one. Each frame depends on the vertex above it, and
of what it has looked at, all else is finished. -/
def Stacked (g : Graph) (order : List Nat) : Option Nat → List Frame → Prop
  | _, [] => True
  | above, f :: fs =>
    (∀ u ∈ above, g.DependsOn f.vertex u) ∧
      (∀ d ∈ (g.next f.vertex).take f.seen, d < g.size → d ∈ order ∨ d ∈ above) ∧
      Stacked g order (some f.vertex) fs

/-- More may be finished, also the vertex above. -/
theorem Stacked.mono {order order' : List Nat} (hsub : ∀ v ∈ order, v ∈ order') :
    ∀ {above above' : Option Nat} {fs : List Frame}, (∀ u ∈ above', u ∈ above) →
      (∀ u ∈ above, u ∈ order' ∨ u ∈ above') →
      g.Stacked order above fs → g.Stacked order' above' fs
  | _, _, [], _, _, _ => trivial
  | above, above', f :: fs, hsub', habove, ⟨hedge, hseen, hfs⟩ => by
    refine ⟨fun u hu => hedge u (hsub' u hu), fun d hd hlt => ?_,
      hfs.mono hsub (fun _ hu => hu) fun _ hu => Or.inr hu⟩
    rcases hseen d hd hlt with hfin | hab
    · exact Or.inl (hsub d hfin)
    · exact habove d hab

/-- The active vertices, from the root on, depend each on the next. -/
theorem Stacked.isChain {order : List Nat} :
    ∀ {above : Option Nat} {fs : List Frame}, g.Stacked order above fs →
      (fs.map (·.vertex)).IsChain fun d v => g.DependsOn v d
  | _, [], _ => .nil
  | _, [_], _ => .singleton _
  | _, _ :: _ :: _, ⟨_, _, hfs⟩ => .cons_cons (hfs.1 _ rfl) hfs.isChain

/-! ## The invariant -/

/-- What holds at every turn of a walk below a vertex that is about to be entered, if there is one. -/
structure Walk.Inv (g : Graph) (above : Option Nat) (w : Walk) : Prop where
  /-- every vertex has a mark -/
  length_eq : w.marks.length = g.size
  /-- the active vertices are those on the stack -/
  active_iff : ∀ v : Nat, w.marks[v]? = some .active ↔ v ∈ w.path
  /-- the finished vertices are those in the order -/
  finished_iff : ∀ v : Nat, w.marks[v]? = some .finished ↔ v ∈ w.order
  /-- no vertex is twice on the stack -/
  path_nodup : w.path.Nodup
  /-- no vertex is twice in the order -/
  order_nodup : w.order.Nodup
  /-- the order is sorted -/
  sorted : g.Sorted w.order
  /-- the frames stand on each other -/
  stacked : g.Stacked w.order above w.stack

namespace Walk

variable {w : Walk} {v d seen : Nat} {rest : List Frame}

theorem path_eq (hstack : w.stack = ⟨v, seen⟩ :: rest) : w.path = v :: rest.map (·.vertex) := by
  rw [path, hstack, List.map_cons]

theorem inv_start (g : Graph) : Inv g none (start g) where
  length_eq := List.length_replicate
  active_iff v := by simp [start, path, List.getElem?_replicate]
  finished_iff v := by simp [start, List.getElem?_replicate]
  path_nodup := List.nodup_nil
  order_nodup := List.nodup_nil
  sorted := .nil
  stacked := trivial

/-- A new vertex is entered. -/
theorem Inv.enter (h : Inv g (some d) w) (hnew : w.marks[d]? = some .new) :
    Inv g none (w.enter d) := by
  obtain ⟨hlt, hget⟩ := List.getElem?_eq_some_iff.1 hnew
  have hpath : (w.enter d).path = d :: w.path := rfl
  refine ⟨by simp [Walk.enter, h.length_eq], fun v => ?_, fun v => ?_, ?_, h.order_nodup, h.sorted,
    by simp, by simp [Walk.enter], h.stacked⟩
  -- only the mark of `d` changes, and only `d` is put on the stack
  · rw [hpath, List.mem_cons, ← h.active_iff v]
    by_cases hv : d = v
    · subst hv
      simp [Walk.enter, hlt]
    · simp [Walk.enter, hv, Ne.symm hv]
  · refine Iff.trans ?_ (h.finished_iff v)
    by_cases hv : d = v
    · subst hv
      simp [Walk.enter, hlt, hget]
    · simp [Walk.enter, hv]
  · rw [hpath, List.nodup_cons, ← h.active_iff d, hnew]
    exact ⟨by simp, h.path_nodup⟩

/-- One more dependency is looked at. -/
theorem Inv.look (h : Inv g none w) (hstack : w.stack = ⟨v, seen⟩ :: rest)
    (hd : (g.next v)[seen]? = some d) :
    Inv g (some d) { w with stack := ⟨v, seen + 1⟩ :: rest } := by
  have hpath : Walk.path { w with stack := ⟨v, seen + 1⟩ :: rest } = w.path := by
    rw [path_eq hstack]
    rfl
  have hst := h.stacked
  rw [hstack] at hst
  obtain ⟨-, hseen, hrest⟩ := hst
  refine ⟨h.length_eq, fun v => hpath ▸ h.active_iff v, h.finished_iff, hpath ▸ h.path_nodup,
    h.order_nodup, h.sorted, ?_, fun u hu hlt => ?_, hrest⟩
  · rintro u ⟨⟩
    exact List.mem_of_getElem? hd
  · dsimp only at hu
    rw [List.take_add_one, hd, Option.toList_some, List.mem_append, List.mem_singleton] at hu
    rcases hu with hu | rfl
    · exact Or.inl ((hseen u hu hlt).resolve_right (by simp))
    · exact Or.inr rfl

/-- A dependency that is finished already, or that is no vertex, is passed over. -/
theorem Inv.pass (h : Inv g (some d) w) (hnew : w.marks[d]? ≠ some .new)
    (hactive : w.marks[d]? ≠ some .active) : Inv g none w := by
  obtain ⟨hlen, hact, hfin, hpath, hord, hsort, hst⟩ := h
  refine ⟨hlen, hact, hfin, hpath, hord, hsort, ?_⟩
  cases hs : w.stack with
  | nil => trivial
  | cons f fs =>
    rw [hs] at hst
    obtain ⟨-, hseen, hrest⟩ := hst
    refine ⟨by simp, fun u hu hlt => ?_, hrest⟩
    rcases hseen u hu hlt with hord' | hu'
    · exact Or.inl hord'
    · -- the vertex above is a vertex and neither new nor active, so it is finished
      obtain rfl : d = u := by simpa using hu'
      left
      rw [← hfin d]
      obtain ⟨m, hm⟩ : ∃ m, w.marks[d]? = some m :=
        ⟨_, List.getElem?_eq_getElem (hlen.symm ▸ hlt)⟩
      cases m with
      | new => exact absurd hm hnew
      | active => exact absurd hm hactive
      | finished => exact hm

/-- The latest active vertex is finished. -/
theorem Inv.finish (h : Inv g none w) (hstack : w.stack = ⟨v, seen⟩ :: rest)
    (hlen : (g.next v).length ≤ seen) :
    Inv g none ⟨w.marks.set v .finished, w.order ++ [v], rest⟩ := by
  have hpath := path_eq hstack
  have hv : w.marks[v]? = some .active := (h.active_iff v).2 (hpath ▸ List.mem_cons_self)
  have hlt : v < w.marks.length := (List.getElem?_eq_some_iff.1 hv).1
  have hnodup := h.path_nodup
  rw [hpath, List.nodup_cons] at hnodup
  have hnew : v ∉ w.order := by
    rw [← h.finished_iff v, hv]
    simp
  have hst := h.stacked
  rw [hstack] at hst
  obtain ⟨-, hseen, hrest⟩ := hst
  refine ⟨by simp [h.length_eq], fun u => ?_, fun u => ?_, hnodup.2, ?_, ?_, ?_⟩
  -- `v` leaves the stack for the order, with all its dependencies looked at
  · by_cases hu : v = u
    · subst hu
      simp only [List.getElem?_set_self hlt]
      exact ⟨by simp, fun hmem => absurd hmem hnodup.1⟩
    · dsimp only
      rw [List.getElem?_set_ne hu, h.active_iff u, hpath, List.mem_cons]
      exact ⟨fun hmem => hmem.resolve_left (Ne.symm hu), Or.inr⟩
  · by_cases hu : v = u
    · subst hu
      simp [hlt]
    · simp [hu, Ne.symm hu, h.finished_iff u]
  · exact List.nodup_append.2 ⟨h.order_nodup, List.nodup_singleton v,
      fun a ha b hb hab => hnew (by rw [← List.mem_singleton.1 hb, ← hab]; exact ha)⟩
  · refine h.sorted.concat fun u hu hsize => ?_
    rw [← List.take_of_length_le hlen] at hu
    exact (hseen u hu hsize).resolve_right (by simp)
  · exact hrest.mono (fun u hu => List.mem_append_left _ hu) (by simp)
      (by simp)

/-- An edge back to an active vertex closes a circle. The vertex is found on the stack, so the circle
starts at it. -/
theorem Inv.isCircle (h : Inv g none w) (hstack : w.stack = ⟨v, seen⟩ :: rest)
    (hd : (g.next v)[seen]? = some d) (hactive : w.marks[d]? = some .active) :
    g.IsCircle (w.circle d) := by
  have hmem : d ∈ w.path.reverse := List.mem_reverse.2 ((h.active_iff d).1 hactive)
  have hchain : w.path.reverse.IsChain g.DependsOn := List.isChain_reverse.2 h.stacked.isChain
  have hlast : w.path.reverse.getLast? = some v := by
    rw [path_eq hstack, List.reverse_cons, List.getLast?_concat]
  -- `d` stands on the stack, so the search for it does not fail
  obtain ⟨i, hi⟩ : ∃ i, w.path.reverse.idxOf? d = some i :=
    Option.isSome_iff_exists.1 (List.isSome_idxOf?.2 hmem)
  obtain ⟨hlt, hget, -⟩ := List.idxOf?_eq_some_iff.1 hi
  have hdrop : w.path.reverse.drop i = d :: w.path.reverse.drop (i + 1) := by
    rw [List.drop_eq_getElem_cons hlt, hget]
  have hcircle : w.circle d = w.path.reverse.drop i ++ [d] := by
    rw [circle, hi, Option.getD_some]
  rw [hcircle]
  constructor
  case two_le => simp [hdrop]
  case closed => rw [List.getLast?_concat, hdrop, List.cons_append, List.head?_cons]
  case nodup =>
    rw [List.dropLast_concat]
    exact (List.nodup_reverse.2 h.path_nodup).sublist (List.drop_sublist _ _)
  case chain =>
    refine (hchain.drop i).append (.singleton d) fun x hx y hy => ?_
    rw [List.getLast?_drop, if_neg (Nat.not_le_of_lt hlt), hlast] at hx
    cases hx
    cases hy
    exact List.mem_of_getElem? hd

/-! ## Whole walks -/

/-- What one walk has met, a later one has met too. -/
def Later (w w' : Walk) : Prop := ∀ u : Nat, w'.marks[u]? = some .new → w.marks[u]? = some .new

theorem Later.trans {w₁ w₂ w₃ : Walk} (h₁ : Later w₁ w₂) (h₂ : Later w₂ w₃) : Later w₁ w₃ :=
  fun u hu => h₁ u (h₂ u hu)

theorem new_of_set {marks : List Mark} {m : Mark} (hm : m ≠ .new) {u v : Nat}
    (h : (marks.set v m)[u]? = some .new) : marks[u]? = some .new := by
  by_cases hu : v = u
  · subst hu
    rw [List.getElem?_set, if_pos rfl] at h
    split at h
    · exact absurd (Option.some.inj h) hm
    · cases h
  · rwa [List.getElem?_set_ne hu] at h

/-- **A turn keeps the invariant.** -/
theorem Inv.step {w' : Walk} (h : Inv g none w) (hne : w.stack ≠ []) (hs : g.step w = .ok w') :
    Inv g none w' ∧ w.Later w' := by
  obtain ⟨v, seen, rest, hstack, ⟨hlen, rfl⟩ | ⟨d, hd, ⟨hnew, rfl⟩ | ⟨hnew, hactive, rfl⟩⟩⟩ :=
    step_eq_ok hs hne
  · exact ⟨h.finish hstack hlen, fun u => new_of_set (by simp)⟩
  · exact ⟨(h.look hstack hd).enter hnew, fun u => new_of_set (by simp)⟩
  · exact ⟨(h.look hstack hd).pass hnew hactive, fun u hu => hu⟩

/-- Turns until no vertex is active keep the invariant. -/
theorem Inv.run {w' : Walk} (h : Inv g none w) (hr : g.run w = .ok w') :
    Inv g none w' ∧ w'.stack = [] ∧ w.Later w' := by
  fun_induction Graph.run g w with
  | case1 w hnil =>
    cases hr
    exact ⟨h, hnil, fun u hu => hu⟩
  | case2 => cases hr
  | case3 w hne next hs ih =>
    obtain ⟨hinv, hlater⟩ := h.step hne hs
    obtain ⟨hinv', hnil, hlater'⟩ := ih hinv hr
    exact ⟨hinv', hnil, hlater.trans hlater'⟩

/-- Turns that end with a circle end with a circle of the graph. -/
theorem Inv.run_error {circle : List Nat} (h : Inv g none w) (hr : g.run w = .error circle) :
    g.IsCircle circle := by
  fun_induction Graph.run g w with
  | case1 => cases hr
  | case2 w hne c hs =>
    cases hr
    obtain ⟨v, seen, rest, d, hstack, hd, hactive, rfl⟩ := step_eq_error hs
    exact h.isCircle hstack hd hactive
  | case3 w hne next hs ih => exact ih (h.step hne hs).1 hr

/-- Between two roots nothing is active, so a root stands on nothing. -/
theorem Inv.enter_root (h : Inv g none w) (hnil : w.stack = []) {root : Nat}
    (hnew : w.marks[root]? = some .new) : Inv g none (w.enter root) :=
  Inv.enter ⟨h.length_eq, h.active_iff, h.finished_iff, h.path_nodup, h.order_nodup, h.sorted,
    by rw [hnil]; trivial⟩ hnew

/-- After its visit a root has been met. -/
theorem Inv.visit {w' : Walk} {root : Nat} (h : Inv g none w) (hnil : w.stack = [])
    (hv : g.visit w root = .ok w') :
    (Inv g none w' ∧ w'.stack = [] ∧ w.Later w') ∧ w'.marks[root]? ≠ some .new := by
  rw [Graph.visit] at hv
  split at hv
  · next hnew =>
    obtain ⟨hinv, hnil', hlater⟩ := (h.enter_root hnil hnew).run hv
    refine ⟨⟨hinv, hnil', fun u hu => new_of_set (by simp) (hlater u hu)⟩, fun hroot => ?_⟩
    -- a root that were new in the end would have been new in its own walk
    have hactive := hlater root hroot
    rw [((h.enter_root hnil hnew).active_iff root).2 List.mem_cons_self] at hactive
    cases hactive
  · next hmet =>
    cases hv
    exact ⟨⟨h, hnil, fun u hu => hu⟩, hmet⟩

/-- All roots that were visited are met in the end. -/
theorem Inv.visitAll {w' : Walk} {roots : List Nat} (h : Inv g none w) (hnil : w.stack = [])
    (hv : roots.foldlM g.visit w = .ok w') :
    (Inv g none w' ∧ w'.stack = [] ∧ w.Later w') ∧
      ∀ root ∈ roots, w'.marks[root]? ≠ some .new := by
  induction roots generalizing w with
  | nil =>
    cases hv
    exact ⟨⟨h, hnil, fun u hu => hu⟩, by simp⟩
  | cons root roots ih =>
    rw [List.foldlM_cons] at hv
    cases hr : g.visit w root with
    | error circle =>
      rw [hr] at hv
      cases hv
    | ok w₁ =>
      rw [hr] at hv
      obtain ⟨⟨hinv, hnil₁, hlater⟩, hmet⟩ := h.visit hnil hr
      obtain ⟨⟨hinv', hnil', hlater'⟩, hall⟩ := ih hinv hnil₁ hv
      exact ⟨⟨hinv', hnil', hlater.trans hlater'⟩,
        List.forall_mem_cons.2 ⟨fun hroot => hmet (hlater' root hroot), hall⟩⟩

theorem Inv.visitAll_error {circle : List Nat} {roots : List Nat} (h : Inv g none w)
    (hnil : w.stack = []) (hv : roots.foldlM g.visit w = .error circle) : g.IsCircle circle := by
  induction roots generalizing w with
  | nil => cases hv
  | cons root roots ih =>
    rw [List.foldlM_cons] at hv
    cases hr : g.visit w root with
    | error circle' =>
      rw [hr] at hv
      cases hv
      rw [Graph.visit] at hr
      split at hr
      · next hnew => exact (h.enter_root hnil hnew).run_error hr
      · cases hr
    | ok w₁ =>
      rw [hr] at hv
      obtain ⟨⟨hinv, hnil₁, -⟩, -⟩ := h.visit hnil hr
      exact ih hinv hnil₁ hv

end Walk

/-- **An order is sorted and complete.** It lists every vertex, each once. -/
theorem depthFirst_ok {order : List Nat} (h : g.depthFirst = .ok order) :
    g.Sorted order ∧ order.Nodup ∧ ∀ v, v ∈ order ↔ v < g.size := by
  obtain ⟨w, hw, rfl⟩ : ∃ w, (List.range g.size).foldlM g.visit (Walk.start g) = .ok w ∧
      w.order = order := by
    rw [depthFirst] at h
    cases hw : (List.range g.size).foldlM g.visit (Walk.start g) with
    | error circle =>
      rw [hw] at h
      cases h
    | ok w =>
      rw [hw] at h
      cases h
      exact ⟨w, rfl, rfl⟩
  obtain ⟨⟨hinv, hnil, -⟩, hmet⟩ := (Walk.inv_start g).visitAll rfl hw
  refine ⟨hinv.sorted, hinv.order_nodup, fun v => ?_⟩
  rw [← hinv.finished_iff v]
  constructor
  · intro hv
    rw [← hinv.length_eq]
    exact (List.getElem?_eq_some_iff.1 hv).1
  · intro hv
    -- every vertex was a root, and with an empty stack none is active
    have hnew := hmet v (List.mem_range.2 hv)
    rw [← hinv.length_eq] at hv
    rw [List.getElem?_eq_getElem hv] at hnew ⊢
    cases hm : w.marks[v] with
    | new => exact absurd (congrArg some hm) hnew
    | active =>
      have hpath := (hinv.active_iff v).1 (List.getElem?_eq_some_iff.2 ⟨hv, hm⟩)
      simp [Walk.path, hnil] at hpath
    | finished => rfl

/-- **A circle is one.** -/
theorem depthFirst_error {circle : List Nat} (h : g.depthFirst = .error circle) :
    g.IsCircle circle := by
  rw [depthFirst] at h
  cases hw : (List.range g.size).foldlM g.visit (Walk.start g) with
  | error circle' =>
    rw [hw] at h
    cases h
    exact (Walk.inv_start g).visitAll_error rfl hw
  | ok w =>
    rw [hw] at h
    cases h

/-- **The walk decides.** It finds an order if and only if there is no circle. -/
theorem depthFirst_isOk_iff : (∃ order, g.depthFirst = .ok order) ↔ g.Acyclic := by
  constructor
  · rintro ⟨order, h⟩
    obtain ⟨hsorted, hnodup, hall⟩ := depthFirst_ok h
    exact hsorted.acyclic hnodup fun v => (hall v).2
  · intro hacyclic
    cases h : g.depthFirst with
    | ok order => exact ⟨order, rfl⟩
    | error circle => exact absurd hacyclic (depthFirst_error h).not_acyclic

end StaticSite.Graph
