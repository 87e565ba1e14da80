import Mathlib.Data.List.Forall2

/-!
# Computations that succeed

A computation that can fail succeeds only if each of its parts does. `bind_eq_ok` takes apart what is
done in sequence and `mapM_eq_ok` what is done with each item of a list. The other way round,
`mapM_of_forall₂` and `mapM_of_forall` put together what succeeds with each item, and `mapM_of_first`
finds the failure.
-/

namespace StaticSite

variable {ε α β : Type}

/-- What succeeds in sequence succeeds in its first part, and then in the rest. -/
theorem bind_eq_ok {x : Except ε α} {f : α → Except ε β} {b : β} (h : x >>= f = .ok b) :
    ∃ a, x = .ok a ∧ f a = .ok b := by
  cases x with
  | error e => cases h
  | ok a => exact ⟨a, rfl, h⟩

/-- What succeeds in sequence succeeds as well with parts that succeed where those do. -/
theorem bind_ok_imp {x x' : Except ε α} {f g : α → Except ε β} {b : β} (h : x >>= f = .ok b)
    (hx : ∀ a, x = .ok a → x' = .ok a) (hf : ∀ a, f a = .ok b → g a = .ok b) :
    x' >>= g = .ok b := by
  obtain ⟨a, ha, h⟩ := bind_eq_ok h
  rw [hx a ha]
  exact hf a h

/-- What fails in sequence fails in its first part, or in the rest. -/
theorem bind_eq_error {x : Except ε α} {f : α → Except ε β} {e : ε} (h : x >>= f = .error e) :
    x = .error e ∨ ∃ a, x = .ok a ∧ f a = .error e := by
  cases x with
  | error e' =>
    cases h
    exact .inl rfl
  | ok a => exact .inr ⟨a, rfl, h⟩

theorem eq_ok_of_toOption {x : Except ε α} {a : α} (h : x.toOption = some a) : x = .ok a := by
  cases x with
  | error e => cases h
  | ok a' => exact congrArg Except.ok (Option.some.inj h)

/-- What succeeds with a list succeeds with each item. -/
theorem mapM_eq_ok {f : α → Except ε β} {xs : List α} {ys : List β} (h : xs.mapM f = .ok ys) :
    List.Forall₂ (fun x y => f x = .ok y) xs ys := by
  induction xs generalizing ys with
  | nil =>
    rw [List.mapM_nil] at h
    cases h
    exact .nil
  | cons x xs ih =>
    rw [List.mapM_cons] at h
    obtain ⟨y, hy, h⟩ := bind_eq_ok h
    obtain ⟨ys, hys, h⟩ := bind_eq_ok h
    cases h
    exact .cons hy (ih hys)

/-- What succeeds with each item of a list, with the item beside it for its value, succeeds with the
list. -/
theorem mapM_of_forall₂ {f : α → Except ε β} {xs : List α} {ys : List β}
    (h : List.Forall₂ (fun x y => f x = .ok y) xs ys) : xs.mapM f = .ok ys := by
  induction h with
  | nil => rfl
  | cons hone _ ih =>
    rw [List.mapM_cons, hone, ih]
    rfl

/-- What gives a value for each item gives the list of them. -/
theorem mapM_of_forall {f : α → Except ε β} {g : α → β} {xs : List α}
    (h : ∀ x ∈ xs, f x = .ok (g x)) : xs.mapM f = .ok (xs.map g) := by
  induction xs with
  | nil => rfl
  | cons x xs ih =>
    rw [List.mapM_cons, h x List.mem_cons_self, ih fun y hy => h y (List.mem_cons_of_mem _ hy)]
    rfl

/-- What succeeds with each item succeeds with the list. -/
theorem exists_mapM_eq_ok {f : α → Except ε β} {xs : List α} (h : ∀ x ∈ xs, ∃ y, f x = .ok y) :
    ∃ ys, xs.mapM f = .ok ys := by
  induction xs with
  | nil => exact ⟨[], rfl⟩
  | cons x xs ih =>
    obtain ⟨y, hy⟩ := h x List.mem_cons_self
    obtain ⟨ys, hys⟩ := ih fun z hz => h z (List.mem_cons_of_mem _ hz)
    refine ⟨y :: ys, ?_⟩
    rw [List.mapM_cons, hy, hys]
    rfl

theorem mapM_congr {f g : α → Except ε β} {xs : List α} (h : ∀ x ∈ xs, f x = g x) :
    xs.mapM f = xs.mapM g := by
  induction xs with
  | nil => rfl
  | cons x xs ih =>
    rw [List.mapM_cons, List.mapM_cons, h x List.mem_cons_self,
      ih fun y hy => h y (List.mem_cons_of_mem _ hy)]

/-- The first item of a list that something fails with decides how it fails. -/
theorem mapM_of_first {f : α → Except ε β} {g : α → β} {front back : List α} {x : α} {e : ε}
    (hfront : ∀ y ∈ front, f y = .ok (g y)) (hx : f x = .error e) :
    (front ++ x :: back).mapM f = .error e := by
  rw [List.mapM_append, mapM_of_forall hfront, List.mapM_cons, hx]
  rfl

/-- Whoever is on the right side of a relation of lists is related to someone on the left side. -/
theorem exists_of_mem_right {R : α → β → Prop} {xs : List α} {ys : List β} {y : β}
    (h : List.Forall₂ R xs ys) (hy : y ∈ ys) : ∃ x ∈ xs, R x y := by
  induction h with
  | nil => exact absurd hy List.not_mem_nil
  | @cons x y' xs ys hone _ ih =>
    rcases List.mem_cons.1 hy with rfl | hy
    · exact ⟨x, List.mem_cons_self, hone⟩
    · obtain ⟨x, hx, hxy⟩ := ih hy
      exact ⟨x, List.mem_cons_of_mem _ hx, hxy⟩

/-- Whoever is on the left side of a relation of lists is related to someone on the right side. -/
theorem exists_of_mem_left {R : α → β → Prop} {xs : List α} {ys : List β} {x : α}
    (h : List.Forall₂ R xs ys) (hx : x ∈ xs) : ∃ y, R x y := by
  obtain ⟨y, -, hxy⟩ := exists_of_mem_right h.flip hx
  exact ⟨y, hxy⟩

end StaticSite
