import StaticSite.Proofs.Success
import StaticSite.Site.Parallel

/-!
# What a schedule decides

A loop that reads succeeds under one schedule exactly if it does under any other one, and with the same
results (`collect_eq_ok`). The schedule only decides which of several failures is reported. A loop that
writes comes to its end under a schedule if it does so with its items in that order, one after the
other.
-/

namespace StaticSite

namespace Schedule

variable {α β ε : Type} {s : Schedule α} {f g : α → Except ε β} {xs : List α} {ys : List β} {x : α}

theorem mem_take : x ∈ s.take xs ↔ x ∈ xs := (s.perm xs).mem_iff

theorem take_nil : s.take [] = [] := List.perm_nil.1 (s.perm [])

theorem take_singleton (x : α) : s.take [x] = [x] := List.perm_singleton.1 (s.perm [x])

/-- **Results do not depend on the schedule.** -/
theorem collect_eq_ok : s.collect f xs = .ok ys ↔ xs.mapM f = .ok ys := by
  constructor
  · intro h
    obtain ⟨_, -, h⟩ := bind_eq_ok h
    exact h
  · intro h
    obtain ⟨zs, hzs⟩ := exists_mapM_eq_ok fun x (hx : x ∈ s.take xs) =>
      exists_of_mem_left (mapM_eq_ok h) (mem_take.1 hx)
    rw [collect, hzs]
    exact h

theorem collect_any_order (h : s.collect f xs = .ok ys) (s' : Schedule α) :
    s'.collect f xs = .ok ys :=
  collect_eq_ok.2 (collect_eq_ok.1 h)

theorem collect_congr (h : ∀ x ∈ xs, f x = g x) : s.collect f xs = s.collect g xs := by
  rw [collect, collect, mapM_congr h, mapM_congr fun x hx => h x (mem_take.1 hx)]

theorem collect_singleton (x : α) : s.collect f [x] = (f x).map fun y => [y] := by
  rw [collect, take_singleton]
  rcases hx : f x with e | y
  · rw [List.mapM_cons, hx]
    rfl
  · rw [List.mapM_cons, hx]
    rfl

end Schedule

end StaticSite
