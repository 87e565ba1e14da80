import StaticSite.Proofs.DepthFirst

/-!
# The walk as a recursive search

The search that textbooks give calls itself. It visits a new vertex by marking it as active, visiting
one after the other the new ones among those that it depends on, and finishing it (`descend`). At the
first dependency that is active itself it gives up, with the chain of active vertices from that one on
and back to it (`descendAll`). Every vertex is taken as a root in order (`recursiveSearch`).

The walk has a stack in the place of the calls. A stack stands for calls that have not returned, and
what they have still to do is `pending`: each goes on with the dependencies that it has not looked at
and then finishes its vertex, the latest call first. A turn of the walk leaves this as it is
(`pending_step`), so all turns together do what the calls do (`run_eq_pending`), and the walk gives
what the search gives (`depthFirst_eq_recursiveSearch`).
-/

namespace StaticSite.Graph

variable {g : Graph}

/-! ## The recursive search -/

/-- How far a search has come. -/
structure Search where
  /-- the mark of each vertex -/
  marks : List Mark
  /-- the finished vertices, the earliest first -/
  order : List Nat

namespace Search

/-- Before the first root. -/
def start (g : Graph) : Search := ⟨List.replicate g.size .new, []⟩

/-- How many vertices are new. -/
def fresh (s : Search) : Nat := s.marks.count .new

/-- Makes a vertex active. -/
def enter (s : Search) (v : Nat) : Search := ⟨s.marks.set v .active, s.order⟩

/-- Finishes a vertex. -/
def finish (s : Search) (v : Nat) : Search := ⟨s.marks.set v .finished, s.order ++ [v]⟩

/-- A search that has come further. -/
structure Since (s : Search) where
  /-- how far it has come -/
  now : Search
  /-- no more vertices are new -/
  le : now.fresh ≤ s.fresh

theorem fresh_enter_lt {s : Search} {v : Nat} (h : s.marks[v]? = some .new) :
    (s.enter v).fresh < s.fresh := count_set_lt (by simp) h

theorem fresh_finish_le (s : Search) (v : Nat) : (s.finish v).fresh ≤ s.fresh :=
  count_set_le s.marks v (by simp)

end Search

mutual

/-- Visits a new vertex behind a chain of active ones: enters it, visits what it depends on, and
finishes it. -/
def descend (g : Graph) (chain : List Nat) (s : Search) (v : Nat) (hv : s.marks[v]? = some .new) :
    Except (List Nat) s.Since := do
  let below ← descendAll g (chain ++ [v]) (s.enter v) (g.next v)
  return ⟨below.now.finish v, Nat.le_trans (Search.fresh_finish_le _ v)
    (Nat.le_trans below.le (Nat.le_of_lt (Search.fresh_enter_lt hv)))⟩
termination_by (s.fresh, 0)
decreasing_by exact Prod.Lex.left _ _ (Search.fresh_enter_lt hv)

/-- Visits the new ones of some dependencies of the last vertex of a chain, in order. One that is
active closes a circle. -/
def descendAll (g : Graph) (chain : List Nat) (s : Search) : List Nat → Except (List Nat) s.Since
  | [] => return ⟨s, Nat.le_refl _⟩
  | d :: ds =>
    match hd : s.marks[d]? with
    | some .new => do
      let first ← descend g chain s d hd
      let rest ← descendAll g chain first.now ds
      return ⟨rest.now, Nat.le_trans rest.le first.le⟩
    | some .active => throw (chain.dropWhile (· ≠ d) ++ [d])
    -- what is no vertex is passed over like what is finished
    | some .finished | none => descendAll g chain s ds
termination_by ds => (s.fresh, ds.length + 1)
decreasing_by
  · exact Prod.Lex.right _ (Nat.succ_pos _)
  · rcases Nat.lt_or_eq_of_le first.le with hlt | heq
    · exact Prod.Lex.left _ _ hlt
    · rw [heq]
      exact Prod.Lex.right _ (Nat.lt_succ_self _)
  · exact Prod.Lex.right _ (Nat.lt_succ_self _)
  · exact Prod.Lex.right _ (Nat.lt_succ_self _)

end

/-- How far the search has come when it has visited the new ones of some vertices below a chain. -/
def explore (g : Graph) (chain : List Nat) (s : Search) (vs : List Nat) :
    Except (List Nat) Search := (descendAll g chain s vs).map (·.now)

/-- Takes a vertex as a root, unless it has been met. -/
def exploreRoot (g : Graph) (s : Search) (root : Nat) : Except (List Nat) Search :=
  if hnew : s.marks[root]? = some .new then (descend g [] s root hnew).map (·.now) else .ok s

/-- The recursive depth-first search from all vertices in order: the vertices in the order in which
they are finished, or the circle that the first edge back to an active vertex closes. -/
def recursiveSearch (g : Graph) : Except (List Nat) (List Nat) :=
  ((List.range g.size).foldlM g.exploreRoot (Search.start g)).map (·.order)

/-! ### What a call does -/

variable {chain ds : List Nat} {s : Search} {d : Nat}

theorem explore_nil : g.explore chain s [] = .ok s := by
  rw [explore, descendAll]
  rfl

/-- A new dependency is entered, all below it is visited, and it is finished before the next one. An
active one closes a circle, and every other one is passed over. -/
theorem explore_cons : g.explore chain s (d :: ds) =
    match s.marks[d]? with
    | some .new => do
      let t ← g.explore (chain ++ [d]) (s.enter d) (g.next d)
      g.explore chain (t.finish d) ds
    | some .active => .error (chain.dropWhile (· ≠ d) ++ [d])
    | some .finished | none => g.explore chain s ds := by
  rw [explore, descendAll]
  split
  · next hd =>
    simp only [hd, explore]
    rw [descend]
    rcases g.descendAll (chain ++ [d]) (s.enter d) (g.next d) with circle | below
    · rfl
    · change Except.map _ (g.descendAll chain (below.now.finish d) ds >>= _) =
        (g.descendAll chain (below.now.finish d) ds).map _
      rcases g.descendAll chain (below.now.finish d) ds with circle | rest
      · rfl
      · rfl
  · next hd => rw [hd]; rfl
  · next hd => rw [hd]; rfl
  · next hd => rw [hd]; rfl

theorem exploreRoot_new {root : Nat} (hnew : s.marks[root]? = some .new) :
    g.exploreRoot s root = do
      let t ← g.explore [root] (s.enter root) (g.next root)
      return t.finish root := by
  rw [exploreRoot, dif_pos hnew, descend, List.nil_append, explore]
  rcases g.descendAll [root] (s.enter root) (g.next root) with circle | below
  · rfl
  · rfl

theorem exploreRoot_met {root : Nat} (hmet : s.marks[root]? ≠ some .new) :
    g.exploreRoot s root = .ok s := by
  rw [exploreRoot, dif_neg hmet]

/-! ## What a stack stands for -/

/-- What the calls that a stack stands for have still to do: the latest one goes on with what it has
not looked at and finishes its vertex, and then the others do so. -/
def pending (g : Graph) (s : Search) : List Frame → Except (List Nat) Search
  | [] => .ok s
  | ⟨v, seen⟩ :: rest => do
    let t ← g.explore (v :: rest.map (·.vertex)).reverse s ((g.next v).drop seen)
    pending g (t.finish v) rest

variable {v seen : Nat} {rest : List Frame}

/-- When nothing is left to look at, the latest call returns. -/
theorem pending_finish (h : (g.next v).length ≤ seen) :
    g.pending s (⟨v, seen⟩ :: rest) = g.pending (s.finish v) rest := by
  rw [pending, List.drop_eq_nil_of_le h, explore_nil]
  rfl

/-- One more dependency is looked at. A new one begins a call, with the rest of the latest one behind
it. -/
theorem pending_look (hd : (g.next v)[seen]? = some d) :
    g.pending s (⟨v, seen⟩ :: rest) =
      match s.marks[d]? with
      | some .new => g.pending (s.enter d) (⟨d, 0⟩ :: ⟨v, seen + 1⟩ :: rest)
      | some .active => .error ((v :: rest.map (·.vertex)).reverse.dropWhile (· ≠ d) ++ [d])
      | some .finished | none => g.pending s (⟨v, seen + 1⟩ :: rest) := by
  obtain ⟨hlt, hget⟩ := List.getElem?_eq_some_iff.1 hd
  rw [pending, List.drop_eq_getElem_cons hlt, hget, explore_cons]
  split
  · simp only [pending, bind_assoc, List.map_cons, List.reverse_cons, List.drop_zero]
  · rfl
  · rw [pending]
  · rw [pending]

variable {w w' : Walk}

namespace Walk

/-- How far a walk has come, without its stack. -/
def search (w : Walk) : Search := ⟨w.marks, w.order⟩

/-- The circle that an active vertex closes is the chain of active ones from it on, and back to it. -/
theorem circle_eq (hd : d ∈ w.path) :
    w.circle d = w.path.reverse.dropWhile (· ≠ d) ++ [d] := by
  obtain ⟨before, behind, hpath, hbefore⟩ :=
    List.eq_append_cons_of_mem (List.mem_reverse.2 hd)
  have hidx : (before ++ d :: behind).idxOf? d = some before.length := by
    refine List.idxOf?_eq_some_iff.2 ⟨by simp, by simp, fun j hj heq => hbefore ?_⟩
    rw [List.getElem_append_left hj] at heq
    exact heq ▸ List.getElem_mem hj
  rw [circle, hpath, hidx, Option.getD_some, List.drop_left, List.dropWhile_append_of_pos,
    List.dropWhile_cons_of_neg (by simp)]
  intro u hu
  rw [decide_eq_true_eq]
  rintro rfl
  exact hbefore hu

end Walk

/-- **A turn does what is pending.** Afterwards as much is left to do as before. -/
theorem pending_step (hs : g.step w = .ok w') (hne : w.stack ≠ []) :
    g.pending w.search w.stack = g.pending w'.search w'.stack := by
  obtain ⟨v, seen, rest, hstack, ⟨hlen, rfl⟩ | ⟨d, hd, hturn⟩⟩ := step_eq_ok hs hne
  · rw [hstack, pending_finish hlen]
    rfl
  · rw [hstack, pending_look hd, Walk.search]
    rcases hturn with ⟨hnew, rfl⟩ | ⟨hnew, hactive, rfl⟩
    · rw [hnew]
      rfl
    · split
      · next hm => exact absurd hm hnew
      · next hm => exact absurd hm hactive
      · rfl
      · rfl

/-- A turn that ends the walk with a circle does so as the pending calls do. -/
theorem pending_step_error {circle : List Nat} (h : Walk.Inv g none w)
    (hs : g.step w = .error circle) : g.pending w.search w.stack = .error circle := by
  obtain ⟨v, seen, rest, d, hstack, hd, hactive, rfl⟩ := step_eq_error hs
  rw [hstack, pending_look hd, Walk.search, hactive,
    Walk.circle_eq ((h.active_iff d).1 hactive), Walk.path_eq hstack]

/-- **Turns do what is pending.** -/
theorem run_eq_pending (h : Walk.Inv g none w) :
    (g.run w).map Walk.search = g.pending w.search w.stack := by
  fun_induction Graph.run g w with
  | case1 w hnil =>
    rw [hnil]
    rfl
  | case2 w hne circle hs =>
    rw [pending_step_error h hs]
    rfl
  | case3 w hne next hs ih => rw [ih (h.step hne hs).1, pending_step hs hne]

/-- A root is visited alike. -/
theorem visit_eq_exploreRoot (h : Walk.Inv g none w) (hnil : w.stack = []) (root : Nat) :
    (g.visit w root).map Walk.search = g.exploreRoot w.search root := by
  rw [visit]
  split
  · next hnew =>
    rw [run_eq_pending (h.enter_root hnil hnew), exploreRoot_new hnew, Walk.enter, hnil, pending]
    rfl
  · next hmet => exact (exploreRoot_met hmet).symm

theorem visitAll_eq_exploreRoot {roots : List Nat} (h : Walk.Inv g none w) (hnil : w.stack = []) :
    (roots.foldlM g.visit w).map Walk.search = roots.foldlM g.exploreRoot w.search := by
  induction roots generalizing w with
  | nil => rfl
  | cons root roots ih =>
    rw [List.foldlM_cons, List.foldlM_cons, ← visit_eq_exploreRoot h hnil root]
    rcases hr : g.visit w root with circle | w₁
    · rfl
    · obtain ⟨⟨hinv, hnil₁, -⟩, -⟩ := h.visit hnil hr
      exact ih hinv hnil₁

/-- **The walk is the recursive search.** Whatever the dependencies are, it gives the same order if no
edge leads back to an active vertex, and otherwise the same circle. -/
theorem depthFirst_eq_recursiveSearch (g : Graph) : g.depthFirst = g.recursiveSearch := by
  have hstart : (Walk.start g).search = Search.start g := rfl
  rw [depthFirst, recursiveSearch, ← hstart, ← visitAll_eq_exploreRoot (Walk.inv_start g) rfl]
  rcases (List.range g.size).foldlM g.visit (Walk.start g) with circle | w
  · rfl
  · rfl

end StaticSite.Graph
