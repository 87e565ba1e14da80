import StaticSite.Number.Basic

/-!
# Render data

Data is what a component file exports and what a template reads: null, truth values, numbers, text,
lists and objects. The fields of an object are kept in ascending order of their names, each name
once, so that two objects with the same fields are equal.

`Dict` is that ordered list of named values. `Dict.get?_insert` is its law: a name is bound to the
value that was put last. As its names are in order, a dictionary that is put together anew stays
what it is (`Dict.ofList_ofList`).
-/

namespace StaticSite

/-- Named values in ascending order of their names. -/
abbrev Dict (α : Type) := List (String × α)

namespace Dict

variable {α : Type}

/-- Puts a value under a name, in place of what was there. -/
def insert (name : String) (value : α) : Dict α → Dict α
  | [] => [(name, value)]
  | (n, v) :: d =>
    if name = n then (name, value) :: d
    else if name < n then (name, value) :: (n, v) :: d
    else (n, v) :: insert name value d

/-- The value under a name. -/
def get? (name : String) : Dict α → Option α
  | [] => none
  | (n, v) :: d => if n = name then some v else get? name d

/-- Takes a name out. -/
def erase (name : String) (d : Dict α) : Dict α := d.filter fun entry => entry.1 != name

/-- Puts the entries of a list one after the other, so that the last one under a name stays. -/
def insertAll (d : Dict α) (entries : List (String × α)) : Dict α :=
  entries.foldl (fun d entry => insert entry.1 entry.2 d) d

/-- The dictionary of a list of entries, the last one under a name winning. -/
def ofList (entries : List (String × α)) : Dict α := insertAll [] entries

@[simp] theorem get?_insert (name key : String) (value : α) (d : Dict α) :
    get? key (insert name value d) = if key = name then some value else get? key d := by
  induction d with
  | nil => by_cases hk : name = key <;> simp [insert, get?, hk, eq_comm]
  | cons entry d ih =>
    obtain ⟨n, v⟩ := entry
    rw [insert]
    split
    · next h =>
      subst h
      by_cases hk : name = key <;> simp [get?, hk, Ne.symm]
    · next h =>
      split
      · by_cases hk : name = key <;> simp [get?, hk, eq_comm]
      · simp only [get?, ih]
        by_cases hk : n = key
        · subst hk; simp [Ne.symm h]
        · simp [hk]

theorem get?_insertAll (name : String) (entries : List (String × α)) (d : Dict α) :
    get? name (insertAll d entries) =
      ((entries.reverse.find? fun entry => entry.1 = name).map Prod.snd).or (get? name d) := by
  induction entries generalizing d with
  | nil => rfl
  | cons entry entries ih =>
    have hstep : insertAll d (entry :: entries) = insertAll (insert entry.1 entry.2 d) entries := rfl
    rw [hstep, ih, get?_insert, List.reverse_cons, List.find?_append]
    cases entries.reverse.find? fun entry => entry.1 = name with
    | some last => simp
    | none => by_cases h : name = entry.1 <;> simp [h, eq_comm]

/-- The last entry under a name counts. -/
theorem get?_ofList_eq_find? (entries : List (String × α)) (name : String) :
    get? name (ofList entries) =
      (entries.reverse.find? fun entry => entry.1 = name).map Prod.snd := by
  rw [ofList, get?_insertAll]
  exact Option.or_none

/-- Names in ascending order, each once. -/
def Ascending (d : Dict α) : Prop := d.Pairwise fun e f => e.1 < f.1

/-- What is in a dictionary after an entry was put in. -/
theorem mem_insert {name : String} {value : α} {d : Dict α} {entry : String × α}
    (h : entry ∈ insert name value d) : entry = (name, value) ∨ entry ∈ d := by
  induction d with
  | nil => exact .inl (List.mem_singleton.1 h)
  | cons first d ih =>
    rw [insert] at h
    split at h
    · exact (List.mem_cons.1 h).imp_right (List.mem_cons_of_mem _)
    · split at h
      · exact List.mem_cons.1 h
      · obtain rfl | h := List.mem_cons.1 h
        · exact .inr List.mem_cons_self
        · exact (ih h).imp_right (List.mem_cons_of_mem _)

/-- A dictionary stays in order. -/
theorem ascending_insert {d : Dict α} (h : Ascending d) (name : String) (value : α) :
    Ascending (insert name value d) := by
  induction d with
  | nil => exact List.pairwise_singleton _ _
  | cons first d ih =>
    obtain ⟨hfirst, hd⟩ := List.pairwise_cons.1 h
    rw [insert]
    split
    · next heq => exact List.pairwise_cons.2 ⟨heq ▸ hfirst, hd⟩
    · next hne =>
      split
      · next hlt =>
        refine List.pairwise_cons.2 ⟨?_, h⟩
        intro entry hentry
        obtain rfl | hentry := List.mem_cons.1 hentry
        · exact hlt
        · exact Std.lt_trans hlt (hfirst entry hentry)
      · next hnot =>
        refine List.pairwise_cons.2 ⟨?_, ih hd⟩
        intro entry hentry
        obtain rfl | hentry := mem_insert hentry
        · exact Std.lt_of_le_of_ne hnot (Ne.symm hne)
        · exact hfirst entry hentry

theorem ascending_insertAll {d : Dict α} (h : Ascending d) (entries : List (String × α)) :
    Ascending (insertAll d entries) := by
  induction entries generalizing d with
  | nil => exact h
  | cons entry entries ih => exact ih (ascending_insert h entry.1 entry.2)

theorem mem_insertAll {d : Dict α} {entries : List (String × α)} {entry : String × α}
    (h : entry ∈ insertAll d entries) : entry ∈ d ∨ entry ∈ entries := by
  induction entries generalizing d with
  | nil => exact .inl h
  | cons first entries ih =>
    obtain h | h := ih (d := insert first.1 first.2 d) h
    · obtain rfl | h := mem_insert h
      · exact .inr List.mem_cons_self
      · exact .inl h
    · exact .inr (List.mem_cons_of_mem _ h)

/-- A name behind all others goes to the end. -/
theorem insert_of_forall_lt {name : String} {value : α} {d : Dict α}
    (h : ∀ entry ∈ d, entry.1 < name) : insert name value d = d ++ [(name, value)] := by
  induction d with
  | nil => rfl
  | cons entry d ih =>
    have hlt : entry.1 < name := h entry List.mem_cons_self
    rw [insert, if_neg, if_neg, ih fun e he => h e (List.mem_cons_of_mem _ he), List.cons_append]
    · exact Std.not_gt_of_lt hlt
    · rintro rfl
      exact Std.lt_irrefl hlt

theorem insertAll_of_ascending {d entries : Dict α} (h : Ascending (d ++ entries)) :
    insertAll d entries = d ++ entries := by
  induction entries generalizing d with
  | nil => simp [insertAll]
  | cons entry entries ih =>
    have hlt : ∀ e ∈ d, e.1 < entry.1 := by
      intro e he
      exact (List.pairwise_append.1 h).2.2 e he entry List.mem_cons_self
    have hstep : insertAll d (entry :: entries) = insertAll (insert entry.1 entry.2 d) entries := rfl
    rw [hstep, insert_of_forall_lt hlt, ih, List.append_assoc, List.singleton_append]
    rwa [List.append_assoc, List.singleton_append]

/-- **A dictionary is its own dictionary**: its names are in order already. -/
theorem ofList_ofList (entries : List (String × α)) : ofList (ofList entries) = ofList entries :=
  insertAll_of_ascending (d := []) (ascending_insertAll List.Pairwise.nil entries)

theorem mem_of_mem_ofList {entries : List (String × α)} {entry : String × α}
    (h : entry ∈ ofList entries) : entry ∈ entries :=
  (mem_insertAll h).resolve_left List.not_mem_nil

end Dict

/-- A value that a template can show. -/
inductive Data where
  /-- no value -/
  | null
  /-- a truth value -/
  | bool (value : Bool)
  /-- a number -/
  | number (value : Number)
  /-- a text -/
  | text (value : String)
  /-- a list of values -/
  | list (items : List Data)
  /-- named values, in ascending order of their names -/
  | object (fields : List (String × Data))
  deriving Repr, Inhabited

/-- The fields of an object, by name. -/
abbrev Fields := Dict Data

end StaticSite
