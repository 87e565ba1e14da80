import Mathlib.Data.List.DropRight
import StaticSite.Proofs.Planned

/-!
# Cleaned paths

A path is a way to walk: a name leads down, double dots lead up, a single dot leads nowhere and the
root to the top, above which there is nothing. What a relative path comes to, from wherever it is
walked, is its *trail*: so many levels up, and names down from there. Cleaning keeps the names of the
trail. Of the levels up it keeps at most one, as two of them take each other away like double dots and
a name. So a cleaned path leads to where the path leads, unless that is relative and goes up two
levels or more (`walk_clean_iff`), and the same holds of the places that they name (`place_clean_iff`).
-/

namespace StaticSite.Path

open Text

variable {p : Path} {l : List Part} {part : Part} {here : Location} {name : String}

/-! ## Walks -/

/-- Where a part leads from a location. -/
def Part.lead (here : Location) : Part → Location
  | .root => []
  | .current => here
  | .parent => here.dropLast
  | .name value => here ++ [value]

/-- Where parts lead from a location, one after the other. -/
def walk (here : Location) (parts : List Part) : Location := parts.foldl Part.lead here

theorem walk_append (here : Location) (l m : List Part) :
    walk here (l ++ m) = walk (walk here l) m := List.foldl_append

theorem walk_current (here : Location) (l : List Part) :
    walk here (.current :: l) = walk here l := rfl

theorem walk_names (here : Location) (names : List String) :
    walk here (names.map .name) = here ++ names := by
  induction names generalizing here with
  | nil => exact (List.append_nil here).symm
  | cons name names ih => exact (ih (here ++ [name])).trans (by simp)

/-- Stretches behind the head of a path lead to where the parts do that they spell. -/
theorem foldl_lead_eq_walk (here : Location) (segments : List String) :
    segments.foldl Path.lead here = walk here (segments.filterMap partOf?) := by
  induction segments generalizing here with
  | nil => rfl
  | cons segment segments ih =>
    rw [List.foldl_cons, ih, List.filterMap_cons]
    by_cases hidle : isIdle segment = true
    · rw [Path.lead, if_pos hidle, partOf?, if_pos hidle]
    · by_cases hup : segment = ".."
      · rw [Path.lead, if_neg hidle, if_pos hup, partOf?, if_neg hidle, if_pos hup]
        rfl
      · rw [Path.lead, if_neg hidle, if_neg hup, partOf?, if_neg hidle, if_neg hup]
        rfl

/-- **The place of a path is where its parts lead.** -/
theorem place_eq_walk (here : Location) (p : Path) : p.place here = walk here p.parts := by
  obtain ⟨first, rest, hsegments⟩ := List.exists_cons_of_ne_nil (segments_ne_nil p)
  rw [place, placeOf, parts, body, head?, hsegments]
  rcases habsolute : p.isAbsolute with _ | _
  · simp only [Bool.false_eq_true, if_false, List.head?_cons, Option.some_inj]
    split
    · next hdot => exact hdot ▸ foldl_lead_eq_walk here rest
    · exact foldl_lead_eq_walk here (first :: rest)
  · -- what stands in front of the first slash is empty
    have hfirst : first = "" := by
      rw [isAbsolute, decide_eq_true_eq] at habsolute
      obtain ⟨s, hs⟩ := List.head?_eq_some_iff.1 habsolute
      rw [segments, hs, splitOn_cons_self, List.map_cons] at hsegments
      exact (List.cons.inj hsegments).1.symm
    rw [hfirst]
    exact foldl_lead_eq_walk [] rest

/-! ## Trails -/

/-- Levels up from any place, and names down from there. -/
structure Trail where
  /-- the levels up -/
  up : Nat := 0
  /-- the names down -/
  down : List String := []

namespace Trail

/-- One more part behind a trail. -/
def step (t : Trail) : Part → Trail
  | .root => {}
  | .current => t
  | .parent => if t.down = [] then { up := t.up + 1 } else { t with down := t.down.dropLast }
  | .name value => { t with down := t.down ++ [value] }

/-- The parts of a trail in which two levels up have taken each other away. -/
def parts (t : Trail) : List Part := List.replicate (t.up % 2) .parent ++ t.down.map .name

/-- Where a trail leads from a location. -/
def lead (here : Location) (t : Trail) : Location := here.rdrop t.up ++ t.down

end Trail

/-- The trail of parts. -/
def trail (l : List Part) : Trail := l.foldl Trail.step {}

theorem trail_concat (l : List Part) (part : Part) : trail (l ++ [part]) = (trail l).step part :=
  List.foldl_concat ..

theorem dropLast_rdrop (here : Location) (n : Nat) :
    (here.rdrop n).dropLast = here.rdrop (n + 1) := by
  rw [List.rdrop_eq_reverse_drop_reverse, List.rdrop_eq_reverse_drop_reverse, List.dropLast_reverse,
    List.tail_drop]

/-- One more part behind a trail leads on from where the trail leads. -/
theorem Trail.lead_step (t : Trail) (here : Location) (h : part ≠ .root) :
    (t.step part).lead here = part.lead (t.lead here) := by
  cases part with
  | root => exact absurd rfl h
  | current => rfl
  | parent =>
    rw [Trail.step]
    split
    · next hdown => simp [Trail.lead, Part.lead, hdown, dropLast_rdrop]
    · next hdown => simp [Trail.lead, Part.lead, List.dropLast_append_of_ne_nil hdown]
  | name value => simp [Trail.step, Trail.lead, Part.lead]

/-- **A walk comes to where its trail leads.** -/
theorem walk_eq_lead (here : Location) (h : .root ∉ l) : walk here l = (trail l).lead here := by
  induction l using List.reverseRecOn with
  | nil => simp [walk, trail, Trail.lead]
  | append_singleton l part ih =>
    rw [List.mem_append, not_or, List.mem_singleton] at h
    rw [walk_append, ih h.1, trail_concat, Trail.lead_step _ _ (Ne.symm h.2)]
    rfl

/-- The names of a trail are names of the parts. -/
theorem mem_of_mem_down (h : name ∈ (trail l).down) : .name name ∈ l := by
  induction l using List.reverseRecOn with
  | nil => exact absurd h List.not_mem_nil
  | append_singleton l part ih =>
    rw [trail_concat] at h
    cases part with
    | root => exact absurd h List.not_mem_nil
    | current => exact List.mem_append_left _ (ih h)
    | parent =>
      rw [Trail.step] at h
      split at h
      · exact absurd h List.not_mem_nil
      · exact List.mem_append_left _ (ih (List.dropLast_subset _ h))
    | name value =>
      rcases List.mem_append.1 h with h | h
      · exact List.mem_append_left _ (ih h)
      · rw [List.mem_singleton.1 h]
        exact List.mem_append_right _ List.mem_cons_self

/-! ## Cleaning -/

/-- What stands in front of the parts that are cleaned: the root or nothing. -/
def IsHead (head : List Part) : Prop := head = [] ∨ head = [.root]

theorem cleanStep_parts {head : List Part} (hhead : IsHead head) (t : Trail) (h : part ≠ .root) :
    cleanStep (t.parts.reverse ++ head) part = (t.step part).parts.reverse ++ head := by
  cases part with
  | root => exact absurd rfl h
  | current => rfl
  | name value => simp [cleanStep, Trail.step, Trail.parts]
  | parent =>
    rw [Trail.step]
    split
    · next hdown =>
      -- two levels up: the second takes away the first
      rcases Nat.mod_two_eq_zero_or_one t.up with heven | hodd
      · have hnext : (t.up + 1) % 2 = 1 := by omega
        obtain rfl | rfl := hhead
        all_goals simp [Trail.parts, hdown, heven, hnext, cleanStep]
      · have hnext : (t.up + 1) % 2 = 0 := by omega
        simp [Trail.parts, hdown, hodd, hnext, cleanStep]
    · next hdown =>
      obtain ⟨names, last, hnames⟩ := List.eq_nil_or_concat t.down |>.resolve_left hdown
      simp [Trail.parts, hnames, cleanStep]

/-- What cleaning makes of parts. -/
theorem foldl_cleanStep {head : List Part} (hhead : IsHead head) (h : .root ∉ l) :
    l.foldl cleanStep head = (trail l).parts.reverse ++ head := by
  induction l using List.reverseRecOn with
  | nil => rfl
  | append_singleton l part ih =>
    rw [List.mem_append, not_or, List.mem_singleton] at h
    rw [List.foldl_concat, ih h.1, cleanStep_parts hhead _ (Ne.symm h.2), trail_concat]

/-! ## Parts as they are spelled -/

/-- A part behind the head of a path: double dots, or a name as it can stand between slashes. -/
def IsSpelled (part : Part) : Prop :=
  '/' ∉ part.text.toList ∧ part.text ≠ "." ∧ partOf? part.text = some part

theorem isSpelled_parent : IsSpelled .parent := ⟨by decide, by decide, by decide⟩

/-- Parts that are put behind each other are the parts of the path that this makes. -/
theorem parts_ofParts {head : List Part} (hhead : IsHead head) (h : ∀ part ∈ l, IsSpelled part) :
    (ofParts (head ++ l)).parts = head ++ l := by
  induction l using List.reverseRecOn with
  | nil =>
    obtain rfl | rfl := hhead
    · decide
    · decide
  | append_singleton l part ih =>
    obtain ⟨hslash, hdot, hpart⟩ := h part (by simp)
    have hfront := ih fun part hpart => h part (List.mem_append_left _ hpart)
    rw [← List.append_assoc, ofParts, List.foldl_concat, ← ofParts, parts_child hslash (.inr hdot),
      hpart, hfront]
    rfl

/-- The parts of a path: the root, if it is absolute, and parts that lead on from there. -/
theorem exists_parts (p : Path) : ∃ l, p.parts = (if p.isAbsolute then [.root] else []) ++ l ∧
    .root ∉ l ∧ ∀ name, .name name ∈ l → IsSpelled (.name name) := by
  have hbody : .root ∉ p.body.filterMap partOf? ∧
      ∀ name, .name name ∈ p.body.filterMap partOf? → IsSpelled (.name name) := by
    constructor
    · intro hroot
      obtain ⟨segment, -, hpart⟩ := List.mem_filterMap.1 hroot
      rw [partOf?] at hpart
      split at hpart
      · cases hpart
      · split at hpart <;> cases hpart
    · intro name hname
      obtain ⟨segment, hsegment, hpart⟩ := List.mem_filterMap.1 hname
      obtain ⟨rfl, -, hidle⟩ := partOf?_eq_name hpart
      have hmem : segment ∈ p.segments := by
        rw [body] at hsegment
        split at hsegment
        · exact List.mem_of_mem_tail hsegment
        · exact hsegment
      refine ⟨notMem_segment hmem, ?_, hpart⟩
      rintro hdot
      rw [isIdle, Bool.or_eq_false_iff, beq_eq_false_iff_ne, beq_eq_false_iff_ne] at hidle
      exact hidle.2 hdot
  rw [parts, head?]
  split
  · exact ⟨_, rfl, hbody⟩
  · split
    · refine ⟨.current :: p.body.filterMap partOf?, rfl, ?_, ?_⟩
      · simpa using hbody.1
      · simpa using hbody.2
    · exact ⟨_, rfl, hbody⟩

/-! ## What a cleaned path is -/

theorem isSpelled_of_mem_parts (h : ∀ name, .name name ∈ l → IsSpelled (.name name)) :
    ∀ part ∈ (trail l).parts, IsSpelled part := by
  intro part hpart
  rcases List.mem_append.1 hpart with hpart | hpart
  · rw [List.eq_of_mem_replicate hpart]
    exact isSpelled_parent
  · obtain ⟨name, hname, rfl⟩ := List.mem_map.1 hpart
    exact h name (mem_of_mem_down hname)

/-- **A cleaned path is the trail of its path**, but for levels up that take each other away. -/
theorem parts_clean {head : List Part} (hhead : IsHead head) (hp : p.parts = head ++ l)
    (hroot : .root ∉ l) (hnames : ∀ name, .name name ∈ l → IsSpelled (.name name)) :
    p.clean.parts = head ++ (trail l).parts := by
  have hstart : head.foldl cleanStep [] = head := by
    obtain rfl | rfl := hhead <;> rfl
  have hreverse : head.reverse = head := by
    obtain rfl | rfl := hhead <;> rfl
  rw [clean, hp, List.foldl_append, hstart, foldl_cleanStep hhead hroot, List.reverse_append,
    List.reverse_reverse, hreverse]
  exact parts_ofParts hhead (isSpelled_of_mem_parts hnames)

theorem walk_trail_parts (here : Location) (t : Trail) :
    walk here t.parts = here.rdrop (t.up % 2) ++ t.down := by
  rw [Trail.parts, walk_append, walk_names]
  rcases Nat.mod_two_eq_zero_or_one t.up with heven | hodd
  · simp [heven, walk]
  · have hone := dropLast_rdrop here 0
    rw [List.rdrop_zero] at hone
    simp [hodd, walk, Part.lead, hone]

/-- Fewer levels up come to the same place only if even these lead to the top. -/
theorem rdrop_eq_rdrop_iff {m n : Nat} (h : m < n) :
    here.rdrop m = here.rdrop n ↔ here.length ≤ m := by
  constructor
  · intro heq
    have hlength := congrArg List.length heq
    simp only [List.rdrop, List.length_take] at hlength
    omega
  · intro hle
    simp only [List.rdrop, Nat.sub_eq_zero_of_le hle,
      Nat.sub_eq_zero_of_le (Nat.le_trans hle (Nat.le_of_lt h))]

/-- Double dots do not stand behind a name where all names come last. -/
theorem not_infix_of_append {m : List Part} (hl : ∀ name, .name name ∉ l) (hm : .parent ∉ m)
    (name : String) : ¬ [.name name, .parent] <:+: l ++ m := by
  rintro ⟨front, back, h⟩
  rw [List.append_assoc] at h
  rcases List.append_eq_append_iff.1 h with ⟨between, rfl, hbetween⟩ | ⟨between, -, rfl⟩
  · rcases between with _ | ⟨first, between⟩
    · rw [List.nil_append] at hbetween
      exact hm (hbetween ▸ by simp)
    · obtain rfl : Part.name name = first := (List.cons.inj hbetween).1
      exact hl name (by simp)
  · exact hm (by simp)

/-- A cleaned path has no single dot, and double dots only in front of all names. -/
theorem shape_of_parts {head : List Part} (hhead : IsHead head) (t : Trail) :
    Part.current ∉ head ++ t.parts ∧
      ∀ name, ¬ [.name name, .parent] <:+: head ++ t.parts := by
  constructor
  · obtain rfl | rfl := hhead <;> simp [Trail.parts]
  · rw [Trail.parts, ← List.append_assoc]
    refine not_infix_of_append (fun name => ?_) (by simp)
    obtain rfl | rfl := hhead <;> simp

/-- A cleaned path leads to where its path leads if the path is absolute or goes up one level at most,
and otherwise only from so near the top that it makes no difference. -/
theorem walk_clean_eq_iff (p : Path) (here : Location) :
    walk here p.clean.parts = walk here p.parts ↔
      p.isAbsolute = true ∨ (trail p.parts).up ≤ 1 ∨ here.length ≤ (trail p.parts).up % 2 := by
  obtain ⟨l, hp, hroot, hnames⟩ := exists_parts p
  rcases habsolute : p.isAbsolute with _ | _
  · rw [habsolute, if_neg Bool.false_ne_true, List.nil_append] at hp
    have hclean : p.clean.parts = (trail p.parts).parts := by
      rw [hp]
      exact parts_clean (.inl rfl) hp hroot hnames
    rw [hclean, walk_trail_parts, walk_eq_lead here (hp ▸ hroot), Trail.lead, List.append_left_inj]
    by_cases hup : (trail p.parts).up ≤ 1
    · simp [hup, Nat.mod_eq_of_lt (Nat.lt_succ_of_le hup)]
    · have hfewer : (trail p.parts).up % 2 < (trail p.parts).up := by omega
      simp [hup, rdrop_eq_rdrop_iff hfewer]
  · rw [habsolute, if_pos rfl] at hp
    refine ⟨fun _ => .inl rfl, fun _ => ?_⟩
    -- from the top there is no way up
    have htop (m : List Part) : walk here ([.root] ++ m) = walk [] m := rfl
    rw [parts_clean (.inr rfl) hp hroot hnames, hp, htop, htop, walk_trail_parts,
      walk_eq_lead [] hroot, Trail.lead]
    simp [List.rdrop]

/-- The shape of a cleaned path. -/
theorem shape_clean (p : Path) :
    .current ∉ p.clean.parts ∧ ∀ name, ¬ [.name name, .parent] <:+: p.clean.parts := by
  obtain ⟨l, hp, hroot, hnames⟩ := exists_parts p
  have hhead : IsHead (if p.isAbsolute = true then [.root] else []) := by
    split
    · exact .inr rfl
    · exact .inl rfl
  rw [parts_clean hhead hp hroot hnames]
  exact shape_of_parts hhead _

/-- **A cleaned path names the place of its path**, with the exceptions for walks. -/
theorem place_clean_iff (p : Path) (here : Location) :
    p.clean.place here = p.place here ↔
      p.isAbsolute = true ∨ (trail p.parts).up ≤ 1 ∨ here.length ≤ (trail p.parts).up % 2 := by
  rw [place_eq_walk, place_eq_walk, walk_clean_eq_iff]

/-- **Cleaning and walking.** A cleaned path leads to where its path leads if the path is absolute or
goes up one level at most, and otherwise only from so near the top that it makes no difference. It
has no single dot, and double dots never stand behind a name. -/
theorem walk_clean_iff (p : Path) (here : Location) :
    (walk here p.clean.parts = walk here p.parts ↔
      p.isAbsolute = true ∨ (trail p.parts).up ≤ 1 ∨ here.length ≤ (trail p.parts).up % 2) ∧
    Part.current ∉ p.clean.parts ∧ ∀ name, ¬ [.name name, .parent] <:+: p.clean.parts :=
  ⟨walk_clean_eq_iff p here, shape_clean p⟩

/-- Two levels up are lost. -/
theorem clean_two_up : ¬ ∀ (p : Path) (here : Location), (∀ name ∈ here, IsFileName name) →
    walk here p.clean.parts = walk here p.parts ∧ Part.current ∉ p.clean.parts ∧
      ∀ name, ¬ [.name name, .parent] <:+: p.clean.parts := by
  intro h
  have hwalk := (h ⟨"../../x"⟩ ["srv", "site"] (by decide)).1
  revert hwalk
  decide

end StaticSite.Path
