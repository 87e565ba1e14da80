/-!
# Walking a dependency graph

The vertices of a graph are numbered from zero and each has a list of others that it depends on. The
walk goes depth first and takes every vertex as a root in order. A vertex is *new* until the walk
enters it, *active* while the walk is among what it depends on, and *finished* from then on. The walk
either finishes all vertices, dependencies first, or meets a vertex that is still active and reports
the circle that this closes.

A walk keeps three things in step: the mark of each vertex, the finished vertices in order, and a
stack with one frame for each active vertex. `step` is one turn at the latest frame and `run` takes
turns until the stack is empty. It ends because a turn either enters a new vertex, or looks at one
more dependency, or takes a frame away (`step_decreases`).
-/

namespace StaticSite

/-- A graph by the dependencies of each vertex. -/
structure Graph where
  /-- the dependencies of each vertex, in order -/
  edges : List (List Nat)

namespace Graph

/-- The number of vertices. -/
def size (g : Graph) : Nat := g.edges.length

/-- What a vertex depends on. -/
def next (g : Graph) (v : Nat) : List Nat := g.edges[v]?.getD []

/-- How far the walk has come with a vertex. -/
inductive Mark where
  /-- it has not been met -/
  | new
  /-- it was entered, and the walk is among what it depends on -/
  | active
  /-- it is finished, with all that it depends on -/
  | finished
  deriving DecidableEq, Repr

/-- An active vertex and how many of its dependencies were looked at. -/
structure Frame where
  /-- the vertex -/
  vertex : Nat
  /-- how many of its dependencies were looked at -/
  seen : Nat

/-- Where a walk stands. -/
structure Walk where
  /-- the mark of each vertex -/
  marks : List Mark
  /-- the finished vertices, the earliest first -/
  order : List Nat
  /-- the frames of the active vertices, the latest first -/
  stack : List Frame

namespace Walk

/-- Before the first root. -/
def start (g : Graph) : Walk := ⟨List.replicate g.size .new, [], []⟩

/-- The active vertices, the latest first. -/
def path (w : Walk) : List Nat := w.stack.map (·.vertex)

/-- Makes a vertex active. -/
def enter (w : Walk) (v : Nat) : Walk := ⟨w.marks.set v .active, w.order, ⟨v, 0⟩ :: w.stack⟩

/-- The circle that an edge back to an active vertex closes: from this vertex along the active ones
and back to it. -/
def circle (w : Walk) (v : Nat) : List Nat :=
  let path := w.path.reverse
  path.drop ((path.idxOf? v).getD 0) ++ [v]

end Walk

/-- One turn: looks at the next dependency of the latest active vertex, or finishes this vertex when
there is none left. An edge back to an active vertex ends the walk with the circle that it closes. -/
def step (g : Graph) (w : Walk) : Except (List Nat) Walk :=
  match w.stack with
  | [] => .ok w
  | ⟨v, seen⟩ :: rest =>
    match (g.next v)[seen]? with
    | none => .ok ⟨w.marks.set v .finished, w.order ++ [v], rest⟩
    | some d =>
      let w : Walk := { w with stack := ⟨v, seen + 1⟩ :: rest }
      match w.marks[d]? with
      | some .new => .ok (w.enter d)
      | some .active => .error (w.circle d)
      -- what is no vertex is passed over like what is finished
      | some .finished | none => .ok w

/-- **What a turn can do** when it does not end the walk: finish the latest active vertex, enter a
new one that it depends on, or pass over a dependency. -/
theorem step_eq_ok {g : Graph} {w w' : Walk} (h : step g w = .ok w') (hw : w.stack ≠ []) :
    ∃ v seen rest, w.stack = ⟨v, seen⟩ :: rest ∧
      ((g.next v).length ≤ seen ∧ w' = ⟨w.marks.set v .finished, w.order ++ [v], rest⟩ ∨
        ∃ d, (g.next v)[seen]? = some d ∧
          (w.marks[d]? = some .new ∧
              w' = Walk.enter { w with stack := ⟨v, seen + 1⟩ :: rest } d ∨
            w.marks[d]? ≠ some .new ∧ w.marks[d]? ≠ some .active ∧
              w' = { w with stack := ⟨v, seen + 1⟩ :: rest })) := by
  rw [step] at h
  split at h
  · next hnil => exact absurd hnil hw
  · next v seen rest hstack =>
    refine ⟨v, seen, rest, hstack, ?_⟩
    split at h
    · next hnone =>
      cases h
      exact Or.inl ⟨List.getElem?_eq_none_iff.1 hnone, rfl⟩
    · next d hd =>
      refine Or.inr ⟨d, hd, ?_⟩
      dsimp only at h
      split at h
      · next hm =>
        cases h
        exact Or.inl ⟨hm, rfl⟩
      · cases h
      · next hm =>
        cases h
        exact Or.inr ⟨by simp [hm], by simp [hm], rfl⟩
      · next hm =>
        cases h
        exact Or.inr ⟨by simp [hm], by simp [hm], rfl⟩

/-- A turn that ends the walk has met an active vertex. -/
theorem step_eq_error {g : Graph} {w : Walk} {circle : List Nat} (h : step g w = .error circle) :
    ∃ v seen rest d, w.stack = ⟨v, seen⟩ :: rest ∧ (g.next v)[seen]? = some d ∧
      w.marks[d]? = some .active ∧ circle = w.circle d := by
  rw [step] at h
  split at h
  · cases h
  · next v seen rest hstack =>
    split at h
    · cases h
    · next d hd =>
      dsimp only at h
      split at h
      · cases h
      · next hm =>
        cases h
        exact ⟨v, seen, rest, d, hstack, hd, hm, by simp [Walk.circle, Walk.path, hstack]⟩
      · cases h
      · cases h

/-! ## Taking turns -/

/-- How much is left to do with some frames. -/
def work (g : Graph) : List Frame → Nat
  | [] => 0
  | f :: fs => (g.next f.vertex).length - f.seen + 1 + work g fs

theorem count_set_le (marks : List Mark) (v : Nat) {m : Mark} (hm : m ≠ .new) :
    (marks.set v m).count .new ≤ marks.count .new := by
  by_cases hv : v < marks.length
  · rw [List.count_set hv]
    simp [hm]
  · exact Nat.le_of_eq (by rw [List.set_eq_of_length_le (Nat.le_of_not_lt hv)])

theorem count_set_lt {marks : List Mark} {v : Nat} {m : Mark} (hm : m ≠ .new)
    (hv : marks[v]? = some .new) : (marks.set v m).count .new < marks.count .new := by
  obtain ⟨hlt, hget⟩ := List.getElem?_eq_some_iff.1 hv
  have hpos : 0 < marks.count .new := List.count_pos_iff.2 (hget ▸ List.getElem_mem hlt)
  rw [List.count_set hlt, hget, if_pos (beq_self_eq_true _), if_neg (by simpa using hm)]
  omega

/-- Every turn leaves fewer new vertices, or else as many of them and less work with active ones. -/
theorem step_decreases {g : Graph} {w w' : Walk} (h : step g w = .ok w') (hw : w.stack ≠ []) :
    Prod.Lex (· < ·) (· < ·) (w'.marks.count .new, g.work w'.stack)
      (w.marks.count .new, g.work w.stack) := by
  obtain ⟨v, seen, rest, hstack, ⟨-, rfl⟩ | ⟨d, hd, ⟨hm, rfl⟩ | ⟨-, -, rfl⟩⟩⟩ := step_eq_ok h hw
  · have hle := count_set_le w.marks v (m := .finished) (by simp)
    rcases Nat.lt_or_eq_of_le hle with hlt | heq
    · exact Prod.Lex.left _ _ hlt
    · dsimp only
      rw [heq]
      apply Prod.Lex.right
      simp only [work, hstack]
      omega
  · exact Prod.Lex.left _ _ (count_set_lt (by simp) hm)
  · have hlt := (List.getElem?_eq_some_iff.1 hd).1
    apply Prod.Lex.right
    simp only [work, hstack]
    omega

/-- Takes turns until no vertex is active, or until a circle is met. -/
def run (g : Graph) (w : Walk) : Except (List Nat) Walk :=
  if _hw : w.stack = [] then .ok w
  else
    match _hs : step g w with
    | .error circle => .error circle
    | .ok next => run g next
termination_by (w.marks.count .new, g.work w.stack)
decreasing_by exact step_decreases _hs _hw

/-- Takes a vertex as a root, unless it has been met. -/
def visit (g : Graph) (w : Walk) (root : Nat) : Except (List Nat) Walk :=
  if w.marks[root]? = some .new then run g (w.enter root) else .ok w

/-- Every vertex once, those that it depends on before it, or a circle of dependencies. -/
def depthFirst (g : Graph) : Except (List Nat) (List Nat) :=
  ((List.range g.size).foldlM g.visit (Walk.start g)).map (·.order)

end Graph

end StaticSite
