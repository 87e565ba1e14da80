import StaticSite.Proofs.Numerals
import StaticSite.Proofs.PrintedTrees
import StaticSite.Template.Render

/-!
# Dotted paths

An expression that is neither a text in quotes nor a word nor an integer is a path: names with dots
between them, and white space around the dots if one likes. A path is followed from the scope. In an
object a name is a key, and in a list it is an index in decimal, which may have a plus sign and zeros
in front; nothing can be followed from a value that is neither.

`Leads` says where a path leads and `Stuck` that it comes to a step that leads nowhere. An expression
has the value to which its path leads, and is an unknown binding exactly if the path gets stuck
(`evaluate_dotted`).
-/

namespace StaticSite.Template

open Literal Text

variable {segment s : List Char} {segments : List (List Char)} {value next : Data} {n : Nat}

/-! ## Where a path leads -/

/-- An index: digits that write it, perhaps with a plus sign in front. -/
def IsIndex (segment : List Char) (n : Nat) : Prop :=
  ∃ digits, (segment = digits ∨ segment = '+' :: digits) ∧ digits ≠ [] ∧ Digits 10 digits n

/-- One step of a path. -/
inductive Enters : Data → List Char → Data → Prop where
  /-- to the value under a key -/
  | field {fields : Fields} {segment : List Char} {next : Data}
      (h : Dict.get? (String.ofList segment) fields = some next) :
      Enters (.object fields) segment next
  /-- to the item at an index -/
  | item {items : List Data} {segment : List Char} {n : Nat} {next : Data}
      (hindex : IsIndex segment n) (h : items[n]? = some next) : Enters (.list items) segment next

/-- A step that leads nowhere. -/
inductive Blocked : Data → List Char → Prop where
  /-- there is no such key -/
  | field {fields : Fields} {segment : List Char}
      (h : Dict.get? (String.ofList segment) fields = none) : Blocked (.object fields) segment
  /-- there is no such index -/
  | item {items : List Data} {segment : List Char}
      (h : ∀ n, IsIndex segment n → items[n]? = none) : Blocked (.list items) segment
  /-- null has no parts -/
  | null {segment : List Char} : Blocked .null segment
  /-- a truth value has no parts -/
  | bool {b : Bool} {segment : List Char} : Blocked (.bool b) segment
  /-- a number has no parts -/
  | number {x : Number} {segment : List Char} : Blocked (.number x) segment
  /-- a text has no parts -/
  | text {t : String} {segment : List Char} : Blocked (.text t) segment

/-- The value to which a path leads. -/
inductive Leads : Data → List (List Char) → Data → Prop where
  /-- the end of the path -/
  | here {value : Data} : Leads value [] value
  /-- one step, and the path from there -/
  | step {value next last : Data} {segment : List Char} {segments : List (List Char)}
      (hstep : Enters value segment next) (hrest : Leads next segments last) :
      Leads value (segment :: segments) last

/-- A path on which some step leads nowhere. -/
inductive Stuck : Data → List (List Char) → Prop where
  /-- the first step -/
  | here {value : Data} {segment : List Char} {segments : List (List Char)}
      (h : Blocked value segment) : Stuck value (segment :: segments)
  /-- a later step -/
  | later {value next : Data} {segment : List Char} {segments : List (List Char)}
      (hstep : Enters value segment next) (hrest : Stuck next segments) :
      Stuck value (segment :: segments)

/-! ## Following a path -/

theorem index?_eq_some : index? segment = some n ↔ IsIndex segment n := by
  have hdigits (digits : List Char) :
      natIn? 10 digits = some n ↔ digits ≠ [] ∧ Digits 10 digits n := natIn?_eq_some (by omega)
  unfold index?
  split
  · next digits =>
    rw [hdigits]
    constructor
    · intro h
      exact ⟨digits, .inr rfl, h⟩
    · rintro ⟨other, rfl | hplus, hne, hother⟩
      · -- a plus sign is no digit
        obtain ⟨d, hd⟩ := hother.forall_mem '+' List.mem_cons_self
        have hplus := isDigit_of_decimal hd
        simp at hplus
      · cases hplus
        exact ⟨hne, hother⟩
  · next hplus =>
    rw [hdigits]
    constructor
    · intro h
      exact ⟨segment, .inl rfl, h⟩
    · rintro ⟨other, rfl | rfl, h⟩
      · exact h
      · exact absurd rfl (hplus other)

theorem follow_eq_some : follow value segment = some next ↔ Enters value segment next := by
  constructor
  · intro h
    cases value with
    | object fields => exact .field h
    | list items =>
      obtain ⟨n, hn, hitem⟩ := Option.bind_eq_some_iff.1 h
      exact .item (index?_eq_some.1 hn) hitem
    | null | bool | number | text => cases h
  · intro h
    cases h with
    | field h => exact h
    | item hindex h => exact Option.bind_eq_some_iff.2 ⟨_, index?_eq_some.2 hindex, h⟩

theorem follow_eq_none : follow value segment = none ↔ Blocked value segment := by
  constructor
  · intro h
    cases value with
    | object fields => exact .field h
    | list items =>
      exact .item fun n hn => Option.bind_eq_none_iff.1 h n (index?_eq_some.2 hn)
    | null => exact .null
    | bool => exact .bool
    | number => exact .number
    | text => exact .text
  · intro h
    cases h with
    | field h => exact h
    | item h => exact Option.bind_eq_none_iff.2 fun n hn => h n (index?_eq_some.1 hn)
    | null | bool | number | text => rfl

theorem foldlM_follow_eq_some {last : Data} :
    segments.foldlM follow value = some last ↔ Leads value segments last := by
  induction segments generalizing value with
  | nil =>
    constructor
    · rintro ⟨⟩
      exact .here
    · rintro ⟨⟩
      rfl
  | cons segment segments ih =>
    rw [List.foldlM_cons, Option.bind_eq_bind, Option.bind_eq_some_iff]
    constructor
    · rintro ⟨next, hstep, hrest⟩
      exact .step (follow_eq_some.1 hstep) (ih.1 hrest)
    · rintro ⟨⟩
      next hstep hrest => exact ⟨_, follow_eq_some.2 hstep, ih.2 hrest⟩

theorem foldlM_follow_eq_none : segments.foldlM follow value = none ↔ Stuck value segments := by
  induction segments generalizing value with
  | nil =>
    constructor
    · intro h
      cases h
    · intro h
      cases h
  | cons segment segments ih =>
    rw [List.foldlM_cons, Option.bind_eq_bind]
    constructor
    · intro h
      rcases hstep : follow value segment with _ | next
      · exact .here (follow_eq_none.1 hstep)
      · rw [hstep, Option.bind_some] at h
        exact .later (follow_eq_some.1 hstep) (ih.1 h)
    · intro h
      cases h with
      | here h => rw [follow_eq_none.2 h, Option.bind_none]
      | later hstep hrest => rw [follow_eq_some.2 hstep, Option.bind_some, ih.2 hrest]

/-! ## Taking an expression apart -/

/-- A segment of a path: no dot, and no white space at its ends. -/
structure IsSegment (segment : List Char) : Prop where
  /-- it has no dot -/
  noDot : '.' ∉ segment
  /-- it does not start with white space -/
  head : ∀ c ∈ segment.head?, isBlank c = false
  /-- it does not end with white space -/
  last : ∀ c ∈ segment.getLast?, isBlank c = false

/-- What the first segment of a path starts with: neither a quote nor the start of an integer. -/
def StartsPath (c : Char) : Prop :=
  c ≠ '\x27' ∧ c ≠ '\x22' ∧ c ≠ '\x60' ∧ c ≠ '+' ∧ c ≠ '-' ∧ c.isDigit = false

/-- Segments with dots between them, and any white space around the dots. -/
inductive Dotted : List (List Char) → List Char → Prop where
  /-- one segment -/
  | single {segment : List Char} : Dotted [segment] segment
  /-- a segment in front of others -/
  | cons {segment before after s : List Char} {segments : List (List Char)}
      (hbefore : ∀ c ∈ before, isBlank c = true) (hafter : ∀ c ∈ after, isBlank c = true)
      (hrest : Dotted segments s) :
      Dotted (segment :: segments) (segment ++ before ++ '.' :: (after ++ s))

theorem IsSegment.trim_eq (h : IsSegment segment) : trim segment = segment := by
  have hstart : trimStart segment = segment := by
    rcases segment with _ | ⟨c, s⟩
    · rfl
    · exact List.dropWhile_cons_of_neg (by simp [h.head c rfl])
  rw [trim, hstart, trimEnd]
  rcases hlast : segment.reverse with _ | ⟨c, s⟩
  · simpa using hlast
  · have hblank := h.last c (by simp [← List.head?_reverse, hlast])
    rw [List.dropWhile_cons_of_neg (by simp [hblank]), ← hlast, List.reverse_reverse]

theorem notMem_of_blank {blank : List Char} (h : ∀ c ∈ blank, isBlank c = true) : '.' ∉ blank := by
  intro hdot
  exact absurd (h '.' hdot) (by decide)

/-- The segments between the dots of a path, trimmed, are its segments. The white space behind the dot
in front of the first of them is `gap`. -/
theorem Dotted.map_trim_splitOn (h : Dotted segments s) (hsegments : ∀ t ∈ segments, IsSegment t)
    {gap : List Char} (hgap : ∀ c ∈ gap, isBlank c = true) :
    (splitOn '.' (gap ++ s)).map trim = segments := by
  have htrim {segment before : List Char} (hsegment : IsSegment segment)
      {gap : List Char} (hgap : ∀ c ∈ gap, isBlank c = true)
      (hbefore : ∀ c ∈ before, isBlank c = true) :
      (splitOn '.' (gap ++ (segment ++ before))).map trim = [segment] := by
    rw [splitOn_of_notMem, List.map_singleton, ← List.append_assoc, trim_append hgap hbefore,
      hsegment.trim_eq]
    simp [notMem_of_blank hgap, hsegment.noDot, notMem_of_blank hbefore]
  induction h generalizing gap with
  | @single segment =>
    have hnone : ∀ c ∈ ([] : List Char), isBlank c = true := by simp
    have hone := htrim (hsegments segment List.mem_cons_self) hgap hnone
    rwa [List.append_nil] at hone
  | @cons segment before after s segments hbefore hafter hrest ih =>
    rw [← List.append_assoc, splitOn_append_cons, List.map_append,
      htrim (hsegments segment List.mem_cons_self) hgap hbefore,
      ih (fun t ht => hsegments t (List.mem_cons_of_mem _ ht)) hafter, List.singleton_append]

theorem Dotted.exists_prefix {first : List Char} (h : Dotted (first :: segments) s) :
    ∃ rest, s = first ++ rest := by
  cases h with
  | single => exact ⟨[], (List.append_nil _).symm⟩
  | cons => exact ⟨_, List.append_assoc ..⟩

/-- A path is none of the other forms of an expression. -/
theorem evaluate?_of_startsPath {c : Char} {source : String} {scope : Fields}
    (hsource : source.toList = c :: s) (hc : StartsPath c)
    (hwords : source ≠ "true" ∧ source ≠ "false" ∧ source ≠ "null") :
    evaluate? scope source = lookUp scope source.toList := by
  obtain ⟨hsingle, hdouble, hback, hplus, hminus, hdigit⟩ := hc
  have hquoted : quoted? source.toList = none := by
    rw [hsource, quoted?, if_neg]
    simp [hsingle, hdouble, hback]
  have hconstant : constant? source.toList = none := by
    have hword {word : String} (h : source ≠ word) : source.toList ≠ word.toList :=
      fun heq => h (String.toList_inj.1 heq)
    rw [constant?, if_neg (hword hwords.1), if_neg (hword hwords.2.1), if_neg (hword hwords.2.2)]
  have hinteger : integer? source.toList = none := by
    have hsign : readSign (c :: s) = (false, c :: s) := by
      unfold readSign
      split
      · next heq => exact absurd (List.cons.inj heq).1 hminus
      · next heq => exact absurd (List.cons.inj heq).1 hplus
      · rfl
    have hnat : natIn? 10 (c :: s) = none := by
      rw [Option.eq_none_iff_forall_ne_some]
      intro n hn
      obtain ⟨d, hd⟩ := ((natIn?_eq_some (by omega)).1 hn).2.forall_mem c List.mem_cons_self
      rw [isDigit_of_decimal hd] at hdigit
      cases hdigit
    rw [hsource, integer?, hsign]
    simp only [hnat, Option.bind_none]
  rw [evaluate?, hquoted, hconstant, hinteger]

theorem lookUp_dotted {scope : Fields} {first : List Char} (hfirst : first ≠ [])
    (h : Dotted (first :: segments) s) (hsegments : ∀ t ∈ first :: segments, IsSegment t) :
    lookUp scope s = (first :: segments).foldlM follow (.object scope) := by
  have hnone : ∀ c ∈ ([] : List Char), isBlank c = true := by simp
  have hsplit := h.map_trim_splitOn hsegments hnone
  rw [List.nil_append] at hsplit
  rw [lookUp, hsplit]
  split
  · next hnil => cases hnil
  · next hempty => exact absurd (List.cons.inj hempty).1 hfirst
  · next heq =>
    cases heq
    rfl

/-- **A path follows the data.** An expression that is a path has the value to which the path leads
from the scope, and is an unknown binding of the component exactly if the path gets stuck. -/
theorem evaluate_dotted (component : String) (scope : Fields) {source : String} {c : Char}
    {first : List Char} {more : List (List Char)}
    (hsource : Dotted ((c :: first) :: more) source.toList)
    (hsegments : ∀ segment ∈ (c :: first) :: more, IsSegment segment) (hstart : StartsPath c)
    (hwords : source ≠ "true" ∧ source ≠ "false" ∧ source ≠ "null") :
    (∀ value, evaluate component scope source = .ok value ↔
      Leads (.object scope) ((c :: first) :: more) value) ∧
    (∀ e, evaluate component scope source = .error e ↔
      e = .unknownBinding component source ∧ Stuck (.object scope) ((c :: first) :: more)) := by
  obtain ⟨rest, hrest⟩ := hsource.exists_prefix
  have hvalue : evaluate? scope source =
      ((c :: first) :: more).foldlM follow (.object scope) := by
    rw [evaluate?_of_startsPath hrest hstart hwords,
      lookUp_dotted (List.cons_ne_nil _ _) hsource hsegments]
  constructor
  · intro value
    rw [← foldlM_follow_eq_some, ← hvalue, evaluate]
    rcases evaluate? scope source with _ | found
    · simp
    · simp
  · intro e
    rw [← foldlM_follow_eq_none, ← hvalue, evaluate]
    rcases evaluate? scope source with _ | found
    · simp [eq_comm]
    · simp

/-- The scope of a page about a post with two tags. -/
def postScope : Fields :=
  [("post", .object [("tags", .list [.text "lean", .text "proof"]), ("title", .text "News")])]

theorem evaluate_dotted_tag :
    Dotted ["post".toList, "tags".toList, "+01".toList] "post . tags.\u00a0+01".toList ∧
      (∀ segment ∈ ["post".toList, "tags".toList, "+01".toList], IsSegment segment) ∧
      StartsPath 'p' ∧
      Leads (.object postScope) ["post".toList, "tags".toList, "+01".toList] (.text "proof") ∧
      evaluate "Page" postScope "post . tags.\u00a0+01" = .ok (.text "proof") := by
  have hblank : ∀ c ∈ ['\u00a0'], isBlank c = true := by simp [isBlank]
  have hspace : ∀ c ∈ [' '], isBlank c = true := by simp [isBlank]
  have hnone : ∀ c ∈ [], isBlank c = true := by simp
  have hdotted : Dotted ["post".toList, "tags".toList, "+01".toList]
      "post . tags.\u00a0+01".toList :=
    .cons hspace hspace (.cons hnone hblank .single)
  have hsegments : ∀ segment ∈ ["post".toList, "tags".toList, "+01".toList], IsSegment segment := by
    simp only [List.forall_mem_cons]
    refine ⟨⟨?_, ?_, ?_⟩, ⟨?_, ?_, ?_⟩, ⟨?_, ?_, ?_⟩, by simp⟩ <;> simp [isBlank]
  have hstart : StartsPath 'p' := by
    refine ⟨?_, ?_, ?_, ?_, ?_, ?_⟩ <;> decide
  have hindex : IsIndex "+01".toList 1 := index?_eq_some.1 rfl
  have hleads : Leads (.object postScope) ["post".toList, "tags".toList, "+01".toList]
      (.text "proof") :=
    .step (.field rfl) (.step (.field rfl) (.step (.item hindex rfl) .here))
  exact ⟨hdotted, hsegments, hstart, hleads,
    ((evaluate_dotted "Page" postScope hdotted hsegments hstart (by decide)).1 _).2 hleads⟩

end StaticSite.Template
