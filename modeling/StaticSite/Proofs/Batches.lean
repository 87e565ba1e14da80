import Mathlib.Data.List.Induction
import Mathlib.Data.Prod.Lex
import Mathlib.Data.String.Basic
import StaticSite.Preview.Debounce

/-!
# Batches of changes

What a watcher hands out, told by what it has heard: a batch is never empty, is in the order of
paths, and lists exactly the files that have changed since the batch before it, those of editors left
out; and it is handed out only when a full window has passed since the last such change
(`watch_batches`).

The state of a watcher behind some signals is `hear`. A batch leaves it as it was at its start
(`hear_of_sinceBatch`), so that only what came since the last batch matters; from there on the
pending files are what has been received (`lists_hear`), and the time that is remembered is not
before any change (`le_of_last?`).
-/

namespace StaticSite

/-! ## The order of paths -/

namespace Path

theorem same_iff {p q : Path} : p.same q = true ↔ p.parts = q.parts := decide_eq_true_iff

/-- Paths are in order by the first parts in which they differ. -/
theorem go_cons (a b : Part) (as bs : List Part) :
    le.go (a :: as) (b :: bs) = true ↔
      toLex a.rank < toLex b.rank ∨ a.rank = b.rank ∧ le.go as bs = true := by
  rcases ha : a.rank with ⟨m, s⟩
  rcases hb : b.rank with ⟨n, t⟩
  simp only [le.go, ha, hb, Prod.Lex.toLex_lt_toLex, Prod.mk.injEq]
  by_cases hmn : m = n
  · by_cases hst : s = t
    · simp [hmn, hst]
    · simp [hmn, hst]
  · simp [hmn]

theorem go_total (as bs : List Part) : le.go as bs = true ∨ le.go bs as = true := by
  induction as generalizing bs with
  | nil => exact .inl (by rw [le.go])
  | cons a as ih =>
    cases bs with
    | nil => exact .inr (by rw [le.go])
    | cons b bs =>
      rw [go_cons, go_cons]
      rcases lt_trichotomy (toLex a.rank) (toLex b.rank) with h | h | h
      · exact .inl (.inl h)
      · have h : a.rank = b.rank := toLex.injective h
        exact (ih bs).imp (fun hle => .inr ⟨h, hle⟩) (fun hle => .inr ⟨h.symm, hle⟩)
      · exact .inr (.inl h)

theorem go_trans {as bs cs : List Part} (h₁ : le.go as bs = true) (h₂ : le.go bs cs = true) :
    le.go as cs = true := by
  induction as generalizing bs cs with
  | nil => rw [le.go]
  | cons a as ih =>
    rcases bs with _ | ⟨b, bs⟩
    · simp [le.go] at h₁
    · rcases cs with _ | ⟨c, cs⟩
      · simp [le.go] at h₂
      · rw [go_cons] at h₁ h₂ ⊢
        rcases h₁ with h₁ | ⟨hab, h₁⟩
        · rcases h₂ with h₂ | ⟨hbc, -⟩
          · exact .inl (h₁.trans h₂)
          · exact .inl (hbc ▸ h₁)
        · rw [hab]
          exact h₂.imp_right fun ⟨hbc, h₂⟩ => ⟨hbc, ih h₁ h₂⟩

/-- Sorted paths are in order. -/
theorem pairwise_le_mergeSort (ps : List Path) :
    (ps.mergeSort le).Pairwise fun p q => p.le q = true := by
  have htrans (p q r : Path) (h₁ : p.le q = true) (h₂ : q.le r = true) : p.le r = true :=
    go_trans h₁ h₂
  have htotal (p q : Path) : (p.le q || q.le p) = true :=
    Bool.or_eq_true_iff.2 (go_total p.parts q.parts)
  exact List.pairwise_mergeSort htrans htotal ps

end Path

namespace Debouncer

/-! ## Files listed once -/

/-- A list has each of some paths once, in the spelling in which it comes first. -/
structure Lists (list paths : List Path) : Prop where
  /-- no two of them are the same -/
  apart : list.Pairwise fun p q => p.same q = false
  /-- each is one of the paths, and no spelling of it comes earlier -/
  first : ∀ p ∈ list, paths.find? (·.same p) = some p
  /-- every path is there in some spelling -/
  every : ∀ q ∈ paths, ∃ p ∈ list, q.same p = true

theorem Lists.nil : Lists [] [] := ⟨.nil, by simp, by simp⟩

/-- What comes later is not the first spelling of a path. -/
theorem Lists.first_append {list paths : List Path} (h : Lists list paths) (more : List Path) :
    ∀ p ∈ list, (paths ++ more).find? (·.same p) = some p := by
  intro p hp
  rw [List.find?_append, h.first p hp, Option.some_or]

theorem Lists.note {list paths : List Path} (h : Lists list paths) (p : Path) :
    Lists (note list p) (paths ++ [p]) := by
  rw [Debouncer.note]
  split
  · next hany =>
    obtain ⟨q, hq, hqp⟩ := List.any_eq_true.1 hany
    refine ⟨h.apart, h.first_append _, fun r hr => ?_⟩
    rcases List.mem_append.1 hr with hr | hr
    · exact h.every r hr
    · rw [List.mem_singleton.1 hr]
      exact ⟨q, hq, Path.same_iff.2 (Path.same_iff.1 hqp).symm⟩
  · next hany =>
    have hnew : ∀ q ∈ list, q.same p = false := by simpa using hany
    refine ⟨?_, fun q hq => ?_, fun r hr => ?_⟩
    · rw [List.pairwise_append]
      exact ⟨h.apart, List.pairwise_singleton _ _, by simpa using hnew⟩
    · rcases List.mem_append.1 hq with hq | hq
      · exact h.first_append _ q hq
      · rw [List.mem_singleton.1 hq, List.find?_append]
        -- a path that is the same would be in the list
        have hnone : paths.find? (·.same p) = none := by
          rw [List.find?_eq_none]
          intro q hq hqp
          obtain ⟨r, hr, hqr⟩ := h.every q hq
          have hrp : r.same p = true :=
            Path.same_iff.2 ((Path.same_iff.1 hqr).symm.trans (Path.same_iff.1 hqp))
          rw [hnew r hr] at hrp
          cases hrp
        rw [hnone, Option.none_or]
        simp [Path.same]
    · rcases List.mem_append.1 hr with hr | hr
      · obtain ⟨q, hq, hrq⟩ := h.every r hr
        exact ⟨q, List.mem_append_left _ hq, hrq⟩
      · rw [List.mem_singleton.1 hr]
        exact ⟨p, List.mem_append_right _ List.mem_cons_self, Path.same_iff.2 rfl⟩

theorem Lists.foldl_note {list paths : List Path} (h : Lists list paths) (more : List Path) :
    Lists (more.foldl Debouncer.note list) (paths ++ more) := by
  induction more generalizing list paths with
  | nil => rwa [List.append_nil]
  | cons p more ih =>
    rw [List.foldl_cons, ← List.singleton_append, ← List.append_assoc]
    exact ih (h.note p)

theorem note_ne_nil (list : List Path) (p : Path) : Debouncer.note list p ≠ [] := by
  rw [Debouncer.note]
  split
  · next hany =>
    rintro rfl
    cases hany
  · exact List.append_ne_nil_of_right_ne_nil _ (List.cons_ne_nil _ _)

theorem foldl_note_eq_nil {list more : List Path} (h : more.foldl Debouncer.note list = []) :
    more = [] := by
  induction more using List.reverseRecOn with
  | nil => rfl
  | append_singleton more p =>
    rw [List.foldl_append] at h
    exact absurd h (note_ne_nil _ p)

theorem Lists.perm {list other paths : List Path} (h : Lists list paths)
    (hperm : other.Perm list) : Lists other paths where
  apart := hperm.symm.pairwise h.apart fun hpq => by
    rw [Bool.eq_false_iff] at hpq ⊢
    exact fun hqp => hpq (Path.same_iff.2 (Path.same_iff.1 hqp).symm)
  first := fun p hp => h.first p (hperm.mem_iff.1 hp)
  every := fun q hq => (h.every q hq).imp fun _ hp => ⟨hperm.mem_iff.2 hp.1, hp.2⟩

/-! ## One round -/

/-- The changed files that a signal tells of. -/
def Signal.changed : Signal → List Path
  | .event kind paths => if kind.isRelevant then paths.filter (!·.isScratch) else []
  | .failure => []
  | .silence => []

/-- A watcher that has heard of nothing. -/
def fresh (window : Nat) : Debouncer := { window }

variable {b : Debouncer} {now : Nat} {signal : Signal} {signals : List (Nat × Signal)}

theorem isReady_iff :
    b.isReady now = true ↔
      b.pending ≠ [] ∧ ∃ last, b.last? = some last ∧ b.window ≤ now - last := by
  cases hlast : b.last? <;> simp [isReady, hlast]

/-- What a round does: it adds the files of an event, or nothing happens, or a batch is handed out. -/
theorem round_cases (b : Debouncer) (now : Nat) (signal : Signal) :
    (∃ paths, b.round now signal = (b.add paths now, none) ∧
      signal.changed = paths.filter (!·.isScratch)) ∨
    (b.round now signal = (b, none) ∧ signal.changed = []) ∨
    (b.isReady now = true ∧ b.round now signal = (b.take.2, some b.take.1) ∧
      signal.changed = []) := by
  cases signal with
  | event kind paths =>
    cases hkind : kind.isRelevant with
    | true => exact .inl ⟨paths, by simp [round, hkind], by simp [Signal.changed, hkind]⟩
    | false => exact .inr (.inl ⟨by simp [round, hkind], by simp [Signal.changed, hkind]⟩)
  | failure => exact .inr (.inl ⟨rfl, rfl⟩)
  | silence =>
    cases hready : b.isReady now with
    | true => exact .inr (.inr ⟨rfl, by simp [round, hready], rfl⟩)
    | false => exact .inr (.inl ⟨by simp [round, hready], rfl⟩)

/-- A batch is what has been pending, and nothing is pending any more. -/
theorem round_eq_some {batch : List Path} (h : (b.round now signal).2 = some batch) :
    b.isReady now = true ∧ batch = b.pending.mergeSort Path.le ∧
      (b.round now signal).1 = fresh b.window := by
  rcases round_cases b now signal with ⟨_, hround, -⟩ | ⟨hround, -⟩ | ⟨hready, hround, -⟩
  · simp [hround] at h
  · simp [hround] at h
  · rw [hround] at h ⊢
    exact ⟨hready, (Option.some.inj h).symm, rfl⟩

/-! ## Many rounds -/

/-- The state behind some signals. -/
def hear (b : Debouncer) (signals : List (Nat × Signal)) : Debouncer :=
  signals.foldl (fun b s => (b.round s.1 s.2).1) b

/-- The changed files that some signals tell of. -/
def received (signals : List (Nat × Signal)) : List Path := signals.flatMap fun s => s.2.changed

theorem hear_append (b : Debouncer) (signals more : List (Nat × Signal)) :
    b.hear (signals ++ more) = (b.hear signals).hear more := List.foldl_append

theorem hear_concat (b : Debouncer) (signals : List (Nat × Signal)) (s : Nat × Signal) :
    b.hear (signals ++ [s]) = ((b.hear signals).round s.1 s.2).1 := hear_append b signals [s]

theorem watch_cons (b : Debouncer) (s : Nat × Signal) (signals : List (Nat × Signal)) :
    b.watch (s :: signals) =
      (b.round s.1 s.2).2.toList ++ (b.round s.1 s.2).1.watch signals := by
  obtain ⟨now, signal⟩ := s
  rw [watch]
  rcases b.round now signal with ⟨b', _ | batch⟩ <;> rfl

theorem watch_append (b : Debouncer) (signals more : List (Nat × Signal)) :
    b.watch (signals ++ more) = b.watch signals ++ (b.hear signals).watch more := by
  induction signals generalizing b with
  | nil => rfl
  | cons s signals ih =>
    rw [List.cons_append, watch_cons, watch_cons, ih, List.append_assoc]
    rfl

theorem watch_concat (b : Debouncer) (signals : List (Nat × Signal)) (s : Nat × Signal) :
    b.watch (signals ++ [s]) =
      b.watch signals ++ ((b.hear signals).round s.1 s.2).2.toList := by
  rw [watch_append, watch_cons, watch, List.append_nil]

theorem window_round (b : Debouncer) (now : Nat) (signal : Signal) :
    (b.round now signal).1.window = b.window := by
  rcases round_cases b now signal with ⟨_, h, -⟩ | ⟨h, -⟩ | ⟨-, h, -⟩ <;> rw [h] <;> rfl

theorem window_hear (b : Debouncer) (signals : List (Nat × Signal)) :
    (b.hear signals).window = b.window := by
  induction signals using List.reverseRecOn with
  | nil => rfl
  | append_singleton signals s ih => rw [hear_concat, window_round, ih]

/-! ## What is pending -/

/-- As long as no batch is handed out, what is received is put to what is pending. -/
theorem lists_hear {paths : List Path} (h : Lists b.pending paths) (hnone : b.watch signals = []) :
    Lists (b.hear signals).pending (paths ++ received signals) := by
  induction signals generalizing b paths with
  | nil => rwa [received, List.flatMap_nil, List.append_nil]
  | cons s signals ih =>
    rw [watch_cons, List.append_eq_nil_iff, Option.toList_eq_nil_iff] at hnone
    have hround : Lists (b.round s.1 s.2).1.pending (paths ++ s.2.changed) := by
      rcases round_cases b s.1 s.2 with ⟨new, hround, hnew⟩ | ⟨hround, hnew⟩ | ⟨-, hround, -⟩
      · rw [hround, hnew]
        exact h.foldl_note _
      · rwa [hround, hnew, List.append_nil]
      · simp [hround] at hnone
    have hrest := ih hround hnone.2
    rwa [List.append_assoc] at hrest

/-- The time that is remembered is that of a signal, and no change is later. -/
theorem le_of_last? {window last : Nat} (htimes : signals.Pairwise fun s t => s.1 ≤ t.1)
    (hlast : ((fresh window).hear signals).last? = some last) :
    (∃ s ∈ signals, s.1 = last) ∧ ∀ s ∈ signals, s.2.changed ≠ [] → s.1 ≤ last := by
  induction signals using List.reverseRecOn with
  | nil => cases hlast
  | append_singleton signals s ih =>
    rw [List.pairwise_append] at htimes
    obtain ⟨htimes, -, hle⟩ := htimes
    replace hle : ∀ t ∈ signals, t.1 ≤ s.1 := fun t ht => hle t ht s List.mem_cons_self
    rw [hear_concat] at hlast
    have hkept (hold : ((fresh window).hear signals).last? = some last)
        (hnew : s.2.changed = []) :
        (∃ t ∈ signals ++ [s], t.1 = last) ∧ ∀ t ∈ signals ++ [s], t.2.changed ≠ [] → t.1 ≤ last := by
      obtain ⟨⟨t, ht, htl⟩, hbound⟩ := ih htimes hold
      refine ⟨⟨t, List.mem_append_left _ ht, htl⟩, fun u hu hchanged => ?_⟩
      rcases List.mem_append.1 hu with hu | hu
      · exact hbound u hu hchanged
      · rw [List.mem_singleton.1 hu] at hchanged
        exact absurd hnew hchanged
    rcases round_cases ((fresh window).hear signals) s.1 s.2 with
      ⟨paths, hround, hnew⟩ | ⟨hround, hnew⟩ | ⟨-, hround, -⟩
    · rw [hround, add] at hlast
      dsimp only at hlast
      split at hlast
      · next hempty =>
        -- nothing is pending, so the signal told of no change
        refine hkept hlast (hnew.trans ?_)
        exact foldl_note_eq_nil (List.isEmpty_iff.1 hempty)
      · cases hlast
        refine ⟨⟨s, List.mem_append_right _ List.mem_cons_self, rfl⟩, fun u hu _ => ?_⟩
        rcases List.mem_append.1 hu with hu | hu
        · exact hle u hu
        · rw [List.mem_singleton.1 hu]
    · rw [hround] at hlast
      exact hkept hlast hnew
    · rw [hround] at hlast
      cases hlast

/-! ## From batch to batch -/

/-- Some signals from the start on, told apart at the last batch: `old` ends with the round that hands
it out, or is nothing if there is no batch, and no round of `recent` hands out another one. -/
structure SinceBatch (window : Nat) (old recent : List (Nat × Signal)) : Prop where
  /-- no batch in the recent signals -/
  quiet : (fresh window).watch (old ++ recent) = (fresh window).watch old
  /-- a batch at the end of the old ones -/
  atBatch : old ≠ [] → (fresh window).watch old ≠ (fresh window).watch old.dropLast

theorem sinceBatch_of_round {window : Nat} {s : Nat × Signal} {recent : List (Nat × Signal)}
    {batch : List Path} (hbatch : (((fresh window).hear signals).round s.1 s.2).2 = some batch)
    (hquiet : (fresh window).watch recent = []) : SinceBatch window (signals ++ [s]) recent where
  quiet := by
    rw [watch_append, hear_concat, (round_eq_some hbatch).2.2, window_hear, fresh, hquiet,
      List.append_nil]
  atBatch := fun _ => by
    rw [List.dropLast_concat, watch_concat, hbatch]
    simp

theorem exists_sinceBatch (window : Nat) (signals : List (Nat × Signal)) :
    ∃ old recent, signals = old ++ recent ∧ SinceBatch window old recent := by
  induction signals using List.reverseRecOn with
  | nil => exact ⟨[], [], rfl, rfl, fun h => absurd rfl h⟩
  | append_singleton signals s ih =>
    rcases hbatch : (((fresh window).hear signals).round s.1 s.2).2 with _ | batch
    · obtain ⟨old, recent, rfl, hsince⟩ := ih
      refine ⟨old, recent ++ [s], List.append_assoc .., ?_, hsince.atBatch⟩
      rw [← List.append_assoc, watch_concat, hbatch, Option.toList_none, List.append_nil,
        hsince.quiet]
    · exact ⟨signals ++ [s], [], (List.append_nil _).symm, sinceBatch_of_round hbatch rfl⟩

/-- A batch leaves a watcher as it was at its start. -/
theorem hear_of_sinceBatch {window : Nat} {old recent : List (Nat × Signal)}
    (h : SinceBatch window old recent) : (fresh window).hear old = fresh window := by
  rcases List.eq_nil_or_concat' old with rfl | ⟨signals, s, rfl⟩
  · rfl
  · rcases hbatch : (((fresh window).hear signals).round s.1 s.2).2 with _ | batch
    · have hsame := h.atBatch (List.append_ne_nil_of_right_ne_nil _ (List.cons_ne_nil _ _))
      rw [List.dropLast_concat, watch_concat, hbatch, Option.toList_none, List.append_nil] at hsame
      exact absurd rfl hsame
    · rw [hear_concat, (round_eq_some hbatch).2.2, window_hear]
      rfl

theorem lists_of_sinceBatch {window : Nat} {old recent : List (Nat × Signal)}
    (h : SinceBatch window old recent) :
    Lists ((fresh window).hear (old ++ recent)).pending (received recent) := by
  have hquiet := h.quiet
  rw [watch_append, hear_of_sinceBatch h] at hquiet
  rw [hear_append, hear_of_sinceBatch h]
  exact lists_hear (b := fresh window) Lists.nil (List.append_right_eq_self.1 hquiet)

/-- Over any signals, at times that do not go back: what is pending are the files that have changed
since the last batch. A batch handed out in the round after them is not empty, is in the order of
paths and lists exactly these files, each once; and every change of a file, in this batch or an earlier
one, is then at least a full window ago. -/
theorem watch_batches (window : Nat) {signals : List (Nat × Signal)}
    (htimes : signals.Pairwise fun s t => s.1 ≤ t.1) :
    (∃ old recent, signals = old ++ recent ∧ SinceBatch window old recent) ∧
    ∀ old recent, signals = old ++ recent → SinceBatch window old recent →
      Lists ((fresh window).hear signals).pending (received recent) ∧
      ∀ now signal batch, (∀ s ∈ signals, s.1 ≤ now) →
        (((fresh window).hear signals).round now signal).2 = some batch →
        batch ≠ [] ∧ batch.Pairwise (fun p q => p.le q = true) ∧ Lists batch (received recent) ∧
          ∀ s ∈ signals, s.2.changed ≠ [] → s.1 + window ≤ now := by
  refine ⟨exists_sinceBatch window signals, ?_⟩
  rintro old recent rfl hsince
  have hlists := lists_of_sinceBatch hsince
  refine ⟨hlists, fun now signal batch hnow hbatch => ?_⟩
  obtain ⟨hready, rfl, -⟩ := round_eq_some hbatch
  obtain ⟨hpending, last, hlast, hwindow⟩ := isReady_iff.1 hready
  rw [window_hear] at hwindow
  obtain ⟨⟨t, ht, rfl⟩, hbound⟩ := le_of_last? htimes hlast
  have hperm := List.mergeSort_perm ((fresh window).hear (old ++ recent)).pending Path.le
  refine ⟨fun hnil => hpending ?_, Path.pairwise_le_mergeSort _, hlists.perm hperm,
    fun s hs hchanged => ?_⟩
  · exact List.perm_nil.1 (hnil ▸ hperm.symm)
  · have hs := hbound s hs hchanged
    have ht := hnow t ht
    have hwindow : window ≤ now - t.1 := hwindow
    omega

/-- Two bursts of changes, the second of them still pending. -/
def editedSignals : List (Nat × Signal) :=
  [(0, .event .made [⟨"src/a.vue"⟩]), (100, .event .accessed [⟨"c.vue"⟩]),
    (200, .event .changed [⟨".b.vue.swp"⟩, ⟨"b.vue"⟩, ⟨"src//a.vue"⟩]), (450, .silence),
    (500, .silence), (600, .event .removed [⟨"b.vue"⟩]), (650, .failure),
    (700, .event .changed [⟨"b.vue~"⟩])]

theorem watch_batches_edited :
    SinceBatch 300 (editedSignals.take 5) (editedSignals.drop 5) ∧
    ((((fresh 300).hear editedSignals).round 1000 .silence).2 = some [⟨"b.vue"⟩] ∧
      Lists [⟨"b.vue"⟩] (received (editedSignals.drop 5)) ∧
      ∀ s ∈ editedSignals, s.2.changed ≠ [] → s.1 + 300 ≤ 1000) := by
  have hfirst : (((fresh 300).hear (editedSignals.take 4)).round 500 .silence).2 =
      some ([⟨"src/a.vue"⟩, ⟨"b.vue"⟩].mergeSort Path.le) := rfl
  have hquiet : (fresh 300).watch (editedSignals.drop 5) = [] := by decide
  have hsince : SinceBatch 300 (editedSignals.take 5) (editedSignals.drop 5) :=
    sinceBatch_of_round (s := (500, .silence)) hfirst hquiet
  have hround : (((fresh 300).hear editedSignals).round 1000 .silence).2 = some [⟨"b.vue"⟩] := by
    rw [← List.mergeSort_singleton]
    rfl
  have htimes : editedSignals.Pairwise fun s t => s.1 ≤ t.1 := by decide
  have hbatch := ((watch_batches 300 htimes).2 _ _
    (List.take_append_drop 5 _).symm hsince).2 1000 .silence _ (by decide) hround
  exact ⟨hsince, hround, hbatch.2.2⟩

end Debouncer

end StaticSite
