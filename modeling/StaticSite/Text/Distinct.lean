/-!
# Lists without repeats

`distinct` keeps of each value its first occurrence. It is built from `pushNew`, which puts a value
at the end of a list unless the list has it, because lists of style sheets grow that way.
-/

namespace StaticSite.Text

variable {α : Type} [DecidableEq α]

/-- Puts a value at the end, unless it is there already. -/
def pushNew (xs : List α) (x : α) : List α := if x ∈ xs then xs else xs ++ [x]

/-- Puts values at the end one after the other, each only once. -/
def extendNew (xs ys : List α) : List α := ys.foldl pushNew xs

/-- The first occurrence of each value. -/
def distinct (xs : List α) : List α := extendNew [] xs

theorem mem_pushNew {xs : List α} {x y : α} : y ∈ pushNew xs x ↔ y ∈ xs ∨ y = x := by
  rw [pushNew]
  split
  · next h => exact ⟨Or.inl, fun h' => h'.elim id fun e => e ▸ h⟩
  · simp

theorem nodup_pushNew {xs : List α} {x : α} (h : xs.Nodup) : (pushNew xs x).Nodup := by
  rw [pushNew]
  split
  · exact h
  · next hx =>
    rw [List.nodup_append]
    refine ⟨h, List.nodup_cons.2 ⟨List.not_mem_nil, List.nodup_nil⟩, fun a ha b hb => ?_⟩
    rw [List.mem_singleton.1 hb]
    exact fun e => hx (e ▸ ha)

theorem mem_extendNew {xs ys : List α} {y : α} : y ∈ extendNew xs ys ↔ y ∈ xs ∨ y ∈ ys := by
  rw [extendNew]
  induction ys generalizing xs with
  | nil => simp
  | cons z ys ih => rw [List.foldl_cons, ih, mem_pushNew, List.mem_cons, or_assoc]

theorem nodup_extendNew {xs ys : List α} (h : xs.Nodup) : (extendNew xs ys).Nodup := by
  rw [extendNew]
  induction ys generalizing xs with
  | nil => exact h
  | cons z ys ih => exact ih (nodup_pushNew h)

theorem mem_distinct {xs : List α} {x : α} : x ∈ distinct xs ↔ x ∈ xs := by
  simp [distinct, mem_extendNew]

theorem nodup_distinct (xs : List α) : (distinct xs).Nodup := nodup_extendNew List.nodup_nil

theorem extendNew_eq_append (xs ys : List α) :
    extendNew xs ys = xs ++ (ys.filter fun y => y ∉ xs).eraseDups := by
  induction ys generalizing xs with
  | nil => simp [extendNew]
  | cons y ys ih =>
    have hstep : extendNew xs (y :: ys) = extendNew (pushNew xs y) ys := rfl
    rw [hstep, ih, pushNew]
    split
    · next hy => rw [List.filter_cons_of_neg (by simpa using hy)]
    · next hy =>
      rw [List.filter_cons_of_pos (by simpa using hy), List.eraseDups_cons, List.filter_filter,
        List.append_assoc, List.singleton_append]
      congr 3
      refine List.filter_congr fun z _ => ?_
      by_cases hz : z = y <;> simp [hz]

/-! ## Growing in several steps -/

theorem prefix_pushNew (xs : List α) (x : α) : xs <+: pushNew xs x := by
  rw [pushNew]
  split
  · exact List.prefix_refl xs
  · exact List.prefix_append xs [x]

theorem pushNew_of_mem {xs : List α} {x : α} (h : x ∈ xs) : pushNew xs x = xs := if_pos h

theorem extendNew_append (xs ys zs : List α) :
    extendNew xs (ys ++ zs) = extendNew (extendNew xs ys) zs := List.foldl_append ..

theorem prefix_extendNew (xs ys : List α) : xs <+: extendNew xs ys := by
  rw [extendNew]
  induction ys generalizing xs with
  | nil => exact List.prefix_refl xs
  | cons y ys ih => exact (prefix_pushNew xs y).trans (ih (pushNew xs y))

theorem extendNew_pushNew (xs ys : List α) (y : α) :
    extendNew xs (pushNew ys y) = pushNew (extendNew xs ys) y := by
  rw [pushNew]
  split
  · next h => rw [pushNew_of_mem (mem_extendNew.2 (.inr h))]
  · rw [extendNew_append]
    rfl

/-- What is put at the end of a list may be free of repeats already, which changes nothing. -/
theorem extendNew_extendNew (xs ys zs : List α) :
    extendNew xs (extendNew ys zs) = extendNew (extendNew xs ys) zs := by
  induction zs generalizing ys with
  | nil => rfl
  | cons z zs ih =>
    have hstep : extendNew ys (z :: zs) = extendNew (pushNew ys z) zs := rfl
    rw [hstep, ih, extendNew_pushNew]
    rfl

theorem extendNew_distinct (xs ys : List α) : extendNew xs (distinct ys) = extendNew xs ys :=
  extendNew_extendNew xs [] ys

theorem distinct_append (xs ys : List α) : distinct (xs ++ ys) = extendNew (distinct xs) ys :=
  extendNew_append [] xs ys

/-- **Repeats may be left out early.** Lists that are put together and freed of repeats may each be
freed of repeats before. -/
theorem distinct_append_flatMap_distinct {β : Type} (xs : List α) (ys : List β) (f : β → List α) :
    distinct (xs ++ ys.flatMap fun y => distinct (f y)) = distinct (xs ++ ys.flatMap f) := by
  rw [distinct_append, distinct_append]
  generalize distinct xs = zs
  induction ys generalizing zs with
  | nil => rfl
  | cons y ys ih =>
    rw [List.flatMap_cons, List.flatMap_cons, extendNew_append, extendNew_append, extendNew_distinct,
      ih]

/-- `distinct` is the library's `eraseDups`, as lists of style sheets grow. -/
theorem distinct_eq_eraseDups (xs : List α) : distinct xs = xs.eraseDups := by
  rw [distinct, extendNew_eq_append, List.nil_append]
  congr 1
  exact List.filter_eq_self.2 fun x _ => by simp

end StaticSite.Text
