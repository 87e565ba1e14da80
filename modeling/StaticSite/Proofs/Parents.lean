import StaticSite.Proofs.Documents

/-!
# The directory of a file

Before a file is written, its directory is made, which has a path of its own: that of the file without
its last part. The two paths need not be spelled alike, but the way to the file is the way to its
directory, up to stretches that spell nothing (`exists_way_of_segments`).
-/

namespace StaticSite

open Text

namespace Path

variable {p : Path} {head? : Option Part} {init body segments : List String} {name : String}

/-- The stretches that spell something. -/
def spelled (segments : List String) : List String := segments.filter fun segment => !isIdle segment

theorem spelled_append (xs ys : List String) : spelled (xs ++ ys) = spelled xs ++ spelled ys :=
  List.filter_append _ _

theorem spelled_cons_of_isIdle {segment : String} (h : isIdle segment = true) :
    spelled (segment :: segments) = spelled segments :=
  List.filter_cons_of_neg (by simp [h])

/-- Stretches that spell nothing lead nowhere else. -/
theorem foldl_lead_spelled (segments : List String) (l : Location) :
    (spelled segments).foldl lead l = segments.foldl lead l := by
  induction segments generalizing l with
  | nil => rfl
  | cons segment segments ih =>
    rcases hidle : isIdle segment with _ | _
    · rw [spelled, List.filter_cons_of_pos (by simp [hidle]), List.foldl_cons, List.foldl_cons]
      exact ih _
    · rw [spelled_cons_of_isIdle hidle, List.foldl_cons, lead, if_pos hidle]
      exact ih l

theorem spelled_dropIdleEnd (body : List String) : spelled (dropIdleEnd body) = spelled body := by
  induction body using List.reverseRecOn with
  | nil => rfl
  | append_singleton body segment ih =>
    rcases hidle : isIdle segment with _ | _
    · rw [dropIdleEnd, List.reverse_concat, List.dropWhile_cons_of_neg (by simp [hidle]),
        ← List.reverse_concat, List.reverse_reverse]
    · rw [dropIdleEnd, List.reverse_concat, List.dropWhile_cons_of_pos hidle, spelled_append,
        spelled_cons_of_isIdle hidle]
      exact ih.trans (List.append_nil _).symm

theorem dropIdleEnd_isPrefix (body : List String) : dropIdleEnd body <+: body := by
  have hsuffix := List.dropWhile_suffix (l := body.reverse) isIdle
  rw [dropIdleEnd]
  simpa using List.reverse_prefix.2 hsuffix

theorem dropIdleEnd_concat (body : List String) (h : isIdle name = false) :
    dropIdleEnd (body ++ [name]) = body ++ [name] := by
  rw [dropIdleEnd, List.reverse_concat, List.dropWhile_cons_of_neg (by simp [h]),
    ← List.reverse_concat, List.reverse_reverse]

/-- What stretches that are put together spell. -/
theorem spelled_segments_intercalate (h : ∀ segment ∈ body, '/' ∉ segment.toList) :
    spelled (⟨"/".intercalate body⟩ : Path).segments = spelled body := by
  rcases body with _ | ⟨segment, body⟩
  · rfl
  · rw [segments_intercalate_of_plain h (List.cons_ne_nil _ _)]

/-- A head spells nothing that leads elsewhere. -/
theorem spelled_segments_assemble (hhead : head? = none ∨ head? = some .root ∨ head? = some .current)
    (h : ∀ segment ∈ body, '/' ∉ segment.toList) :
    spelled (assemble head? body).segments = spelled body := by
  have htail := spelled_segments_intercalate h
  obtain rfl | rfl | rfl := hhead
  · exact htail
  · have hsegments := segments_append_slash "" ("/".intercalate body)
    rw [String.empty_append] at hsegments
    rw [assemble, hsegments, spelled_append, htail]
    rfl
  · have hsegments := segments_append_slash "." ("/".intercalate body)
    simp only [assemble]
    split
    · next hnil =>
      rw [hnil]
      rfl
    · have hdot : "./" = "." ++ "/" := rfl
      rw [hdot, hsegments, spelled_append, htail]
      rfl

theorem isAbsolute_assemble (hhead : head? = none ∨ head? = some .root ∨ head? = some .current)
    (h : ∀ segment ∈ body, '/' ∉ segment.toList) (hfirst : head? = none → body.head? ≠ some "") :
    (assemble head? body).isAbsolute = decide (head? = some .root) := by
  obtain rfl | rfl | rfl := hhead
  · rcases body with _ | ⟨segment, body⟩
    · rfl
    · refine isAbsolute_of_segments ?_
      simp only [assemble]
      rw [segments_intercalate_of_plain h (List.cons_ne_nil _ _)]
      exact hfirst rfl
  · simp [assemble, isAbsolute]
  · simp only [assemble]
    split
    · rfl
    · simp [isAbsolute]

theorem head?_cases (p : Path) :
    p.head? = some .root ∧ p.isAbsolute = true ∨
      p.head? = some .current ∧ p.isAbsolute = false ∧ p.segments.head? = some "." ∨
      p.head? = none ∧ p.isAbsolute = false := by
  rw [head?]
  rcases p.isAbsolute with _ | _
  · by_cases hdot : p.segments.head? = some "."
    · simp [hdot]
    · simp [hdot]
  · simp

theorem head?_segments_of_isAbsolute (h : p.isAbsolute = true) : p.segments.head? = some "" := by
  rw [isAbsolute, decide_eq_true_eq] at h
  obtain ⟨s, hs⟩ := List.head?_eq_some_iff.1 h
  rw [segments, hs, splitOn_cons_self]
  rfl

/-- **The directory of a path** whose last stretch spells something has the other stretches, but for
some that spell nothing, and starts where the path does. -/
theorem parent?_of_segments (h : p.segments = init ++ [name]) (hname : isIdle name = false) :
    ∃ dir, p.parent? = some dir ∧ dir.isAbsolute = p.isAbsolute ∧
      spelled dir.segments = spelled init := by
  have hplain : ∀ segment ∈ init, '/' ∉ segment.toList := fun segment hmem =>
    notMem_segment (h ▸ List.mem_append_left _ hmem)
  have hidle : name ≠ "" ∧ name ≠ "." := by
    rwa [isIdle, Bool.or_eq_false_iff, beq_eq_false_iff_ne, beq_eq_false_iff_ne] at hname
  -- the stretches behind the head are those in front of the last one, with or without the first
  obtain ⟨front, hfront, hinit, hspelled⟩ : ∃ front, p.body = front ++ [name] ∧
      (∀ segment ∈ front, segment ∈ init) ∧ spelled front = spelled init := by
    rcases init with _ | ⟨first, init⟩
    · have hnone : p.head? = none := by
        obtain ⟨-, hroot⟩ | ⟨-, -, hdot⟩ | ⟨hnone, -⟩ := p.head?_cases
        · have hfirst := head?_segments_of_isAbsolute hroot
          rw [h] at hfirst
          exact absurd (Option.some.inj hfirst) hidle.1
        · rw [h] at hdot
          exact absurd (Option.some.inj hdot) hidle.2
        · exact hnone
      exact ⟨[], by rw [body, hnone, h]; rfl, fun _ hmem => hmem, rfl⟩
    · have hfirst : p.segments.head? = some first := by rw [h]; rfl
      have htail : p.head?.isSome = true → isIdle first = true →
          ∃ front, p.body = front ++ [name] ∧
            (∀ segment ∈ front, segment ∈ first :: init) ∧
              spelled front = spelled (first :: init) := by
        intro hsome hempty
        refine ⟨init, by rw [body, if_pos hsome, h]; rfl, fun _ => List.mem_cons_of_mem _, ?_⟩
        rw [spelled_cons_of_isIdle hempty]
      obtain ⟨hhead, hroot⟩ | ⟨hhead, -, hdot⟩ | ⟨hnone, -⟩ := p.head?_cases
      · have hempty := hfirst.symm.trans (head?_segments_of_isAbsolute hroot)
        exact htail (by rw [hhead]; rfl) (by rw [Option.some.inj hempty]; rfl)
      · exact htail (by rw [hhead]; rfl) (by rw [Option.some.inj (hfirst.symm.trans hdot)]; rfl)
      · exact ⟨first :: init, by rw [body, hnone, h]; rfl, fun _ hmem => hmem, rfl⟩
  have hparent : p.parent? = some (assemble p.head? (dropIdleEnd front)) := by
    rw [parent?, hfront, dropIdleEnd_concat front hname]
    rcases front with _ | ⟨first, front⟩
    · rfl
    · rw [List.cons_append]
      dsimp only
      rw [← List.cons_append, List.dropLast_concat]
  have hslash : ∀ segment ∈ dropIdleEnd front, '/' ∉ segment.toList := fun segment hmem =>
    hplain segment (hinit segment ((dropIdleEnd_isPrefix front).subset hmem))
  have hhead : p.head? = none ∨ p.head? = some .root ∨ p.head? = some .current := by
    obtain ⟨hhead, -⟩ | ⟨hhead, -⟩ | ⟨hhead, -⟩ := p.head?_cases
    · exact .inr (.inl hhead)
    · exact .inr (.inr hhead)
    · exact .inl hhead
  refine ⟨_, hparent, ?_, ?_⟩
  · rw [isAbsolute_assemble hhead hslash fun hnone hempty => ?_]
    · obtain ⟨heq, hroot⟩ | ⟨heq, hroot, -⟩ | ⟨heq, hroot⟩ := p.head?_cases <;> simp [heq, hroot]
    · -- a path with an empty first stretch has the root for its head
      have hfirst : p.segments.head? = some "" := by
        obtain ⟨rest, hrest⟩ := List.head?_eq_some_iff.1 hempty
        obtain ⟨end', hend⟩ := dropIdleEnd_isPrefix front
        rw [body, hnone] at hfront
        have hsegments : p.segments = front ++ [name] := hfront
        rw [hsegments, ← hend, hrest]
        rfl
      have hroot := isAbsolute_of_head? (text_ne_of_segments h hidle.1) hfirst
      rw [head?, if_pos hroot] at hnone
      cases hnone
  · rw [spelled_segments_assemble hhead hslash, spelled_dropIdleEnd, hspelled]

/-- What is passed on the way to a file is passed on the way to its directory. -/
theorem exists_way_of_segments (h : p.segments = init ++ [name]) (hname : isIdle name = false) :
    ∃ dir, p.parent? = some dir ∧ dir.isAbsolute = p.isAbsolute ∧ ∀ way, way <+: init →
      ∃ way', way' <+: dir.segments ∧
        ∀ here, p.placeOf here way = dir.placeOf here way' := by
  obtain ⟨dir, hdir, habsolute, hspelled⟩ := parent?_of_segments h hname
  refine ⟨dir, hdir, habsolute, fun way hway => ?_⟩
  obtain ⟨rest, rfl⟩ := hway
  rw [spelled_append] at hspelled
  obtain ⟨way', rest', hsegments, hway', -⟩ := List.filter_eq_append_iff.1 hspelled
  refine ⟨way', ⟨rest', hsegments.symm⟩, fun here => ?_⟩
  rw [placeOf, placeOf, habsolute, ← foldl_lead_spelled, ← foldl_lead_spelled way', ← hway']
  rfl

end Path

end StaticSite
