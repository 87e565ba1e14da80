import Mathlib.Data.List.DropRight
import Mathlib.Data.List.Forall2
import Mathlib.Tactic.Tauto
import StaticSite.Proofs.Batches

/-!
# Changes of scratch files

What calls to a debouncer answer when some of them, told apart as *strays*, only tell of files that
editors leave about. Such a call never changes what is pending, and so no answer of `take` and
`timeout`; but it starts the window anew when other changes are pending, and then a batch may be ready
later than without it. `scratch_delay_iff` says when that is so, and that nothing else can happen.

What a sequence of calls leaves behind is read off from the calls themselves: `restarts` are the times
at which the window was started, and something is pending just when there is one.
-/

namespace StaticSite

namespace Debouncer

/-! ## Calls and answers -/

/-- A call to a debouncer. -/
inductive Call where
  /-- files have changed at a time -/
  | add (paths : List Path) (now : Nat)
  /-- whether the changes can be reported at a time -/
  | ready (now : Nat)
  /-- how long to wait -/
  | timeout
  /-- the changes, none of them waiting any longer -/
  | take
  deriving DecidableEq, Repr

/-- What a call answers, if it does. -/
inductive Answer where
  /-- to `ready` -/
  | ready (yes : Bool)
  /-- to `timeout` -/
  | timeout (wait : Nat)
  /-- to `take` -/
  | taken (paths : List Path)
  deriving DecidableEq, Repr

/-- A call. -/
def perform (b : Debouncer) : Call → Debouncer × Option Answer
  | .add paths now => (b.add paths now, none)
  | .ready now => (b, some (.ready (b.isReady now)))
  | .timeout => (b, some (.timeout b.timeout))
  | .take => (b.take.2, some (.taken b.take.1))

/-- The state behind some calls. -/
def behind (b : Debouncer) (calls : List Call) : Debouncer :=
  calls.foldl (fun b c => (b.perform c).1) b

/-- The answers to some calls. -/
def answers (b : Debouncer) : List Call → List Answer
  | [] => []
  | c :: calls => (b.perform c).2.toList ++ (b.perform c).1.answers calls

theorem behind_concat (b : Debouncer) (calls : List Call) (c : Call) :
    b.behind (calls ++ [c]) = ((b.behind calls).perform c).1 := List.foldl_append

theorem answers_concat (b : Debouncer) (calls : List Call) (c : Call) :
    b.answers (calls ++ [c]) = b.answers calls ++ ((b.behind calls).perform c).2.toList := by
  induction calls generalizing b with
  | nil => rw [List.nil_append, answers, answers, answers, List.append_nil, List.nil_append]; rfl
  | cons d calls ih =>
    rw [List.cons_append, answers, answers, ih, List.append_assoc]
    rfl

theorem window_behind (b : Debouncer) (calls : List Call) : (b.behind calls).window = b.window := by
  induction calls using List.reverseRecOn with
  | nil => rfl
  | append_singleton calls c ih =>
    rw [behind_concat, ← ih]
    cases c <;> rfl

/-! ## When the window was started -/

/-- The time of a call of `add`. -/
def Call.addTime? : Call → Option Nat
  | .add _ now => some now
  | .ready _ | .timeout | .take => none

/-- The time of a call that has one. -/
def Call.time? : Call → Option Nat
  | .add _ now | .ready now => some now
  | .timeout | .take => none

/-- Whether a call tells of a file that is no scratch file. -/
def Call.counts : Call → Bool
  | .add paths _ => paths.any (!·.isScratch)
  | .ready _ | .timeout | .take => false

/-- The times at which the window was started since the last `take`: those of the calls of `add`, from
the first one on that tells of a file that is no scratch file. -/
def restarts (calls : List Call) : List Nat :=
  ((calls.rtakeWhile (· ≠ .take)).dropWhile (!·.counts)).filterMap Call.addTime?

/-- Every start of the window is at least a full window ago. -/
def Rested (window : Nat) (calls : List Call) (now : Nat) : Prop :=
  ∀ t ∈ restarts calls, t + window ≤ now

theorem restarts_take (calls : List Call) : restarts (calls ++ [.take]) = [] := by
  rw [restarts, List.rtakeWhile_concat_neg _ _ _ (by simp)]
  rfl

/-- The window was started as soon as one call counts. -/
theorem filterMap_dropWhile_eq_nil {calls : List Call}
    (h : (calls.dropWhile (!·.counts)).filterMap Call.addTime? = []) :
    calls.dropWhile (!·.counts) = [] := by
  rcases hcalls : calls.dropWhile (!·.counts) with _ | ⟨c, rest⟩
  · exact hcalls
  · have hcounts : c.counts = true := by
      simpa [hcalls] using List.head?_dropWhile_not (!·.counts) calls
    rw [hcalls] at h
    cases c with
    | add paths now => simp [Call.addTime?] at h
    | ready | timeout | take => cases hcounts

theorem restarts_idle {c : Call} (hc : c ≠ .take) (htime : c.addTime? = none) (calls : List Call) :
    restarts (calls ++ [c]) = restarts calls := by
  have hcounts : c.counts = false := by
    cases c with
    | add => cases htime
    | ready | timeout | take => rfl
  rw [restarts, List.rtakeWhile_concat_pos _ _ _ (by simpa using hc), List.dropWhile_append]
  split
  · next hempty =>
    rw [restarts, List.isEmpty_iff.1 hempty]
    simp [hcounts]
  · rw [List.filterMap_append, restarts]
    simp [htime]

theorem restarts_add (calls : List Call) (paths : List Path) (now : Nat) :
    restarts (calls ++ [.add paths now]) =
      if restarts calls = [] ∧ paths.all Path.isScratch then [] else restarts calls ++ [now] := by
  have hcounts : (Call.add paths now).counts = !paths.all Path.isScratch := by
    simp [Call.counts, List.not_all_eq_any_not]
  rw [restarts, List.rtakeWhile_concat_pos _ _ _ (by simp), List.dropWhile_append]
  split
  · next hempty =>
    have hnil : restarts calls = [] := by rw [restarts, List.isEmpty_iff.1 hempty, List.filterMap_nil]
    rw [hnil, List.dropWhile_cons, hcounts, Bool.not_not]
    cases paths.all Path.isScratch <;> simp [Call.addTime?]
  · next hempty =>
    have hne : restarts calls ≠ [] := fun hnil =>
      hempty (List.isEmpty_iff.2 (filterMap_dropWhile_eq_nil hnil))
    rw [if_neg fun h => hne h.1, List.filterMap_append]
    rfl

/-! ## What calls leave behind -/

theorem pending_add_eq_nil (b : Debouncer) (paths : List Path) (now : Nat) :
    (b.add paths now).pending = [] ↔ b.pending = [] ∧ paths.all Path.isScratch = true := by
  rw [add]
  constructor
  · intro h
    have hnone := foldl_note_eq_nil h
    dsimp only at h
    rw [hnone] at h
    exact ⟨h, by simpa [List.filter_eq_nil_iff] using hnone⟩
  · rintro ⟨hpending, hall⟩
    have hnone : paths.filter (!·.isScratch) = [] := by
      simpa [List.filter_eq_nil_iff] using hall
    rw [hnone]
    exact hpending

theorem last?_add (b : Debouncer) (paths : List Path) (now : Nat) :
    (b.add paths now).last? = if (b.add paths now).pending = [] then b.last? else some now := by
  simp only [add, List.isEmpty_iff]

/-- Something is pending just when the window was started, and what is remembered is when it was
started last. -/
theorem behind_fresh (window : Nat) (calls : List Call) :
    (((fresh window).behind calls).pending = [] ↔ restarts calls = []) ∧
      ((fresh window).behind calls).last? = (restarts calls).getLast? := by
  induction calls using List.reverseRecOn with
  | nil => exact ⟨iff_of_true rfl rfl, rfl⟩
  | append_singleton calls c ih =>
    obtain ⟨hpending, hlast⟩ := ih
    rw [behind_concat]
    cases c with
    | add paths now =>
      have hadd := pending_add_eq_nil ((fresh window).behind calls) paths now
      rw [hpending] at hadd
      rw [perform, restarts_add, last?_add]
      split
      · next hnil =>
        rw [if_pos (hadd.2 hnil), hlast, hnil.1]
        exact ⟨iff_of_true (hadd.2 hnil) rfl, rfl⟩
      · next hnil =>
        rw [if_neg fun h => hnil (hadd.1 h), List.getLast?_concat]
        exact ⟨iff_of_false (fun h => hnil (hadd.1 h)) (by simp), rfl⟩
    | ready | timeout =>
      rw [restarts_idle (by simp) rfl]
      exact ⟨hpending, hlast⟩
    | take =>
      rw [restarts_take]
      exact ⟨iff_of_true rfl rfl, rfl⟩

/-- The window is started at times at which something is called. -/
theorem restarts_sublist (calls : List Call) :
    (restarts calls).Sublist (calls.filterMap Call.time?) := by
  have htime (calls : List Call) :
      (calls.filterMap Call.addTime?).Sublist (calls.filterMap Call.time?) := by
    induction calls with
    | nil => exact .slnil
    | cons c calls ih =>
      cases c with
      | add paths now => exact ih.cons_cons now
      | ready now => exact ih.cons now
      | timeout | take => exact ih
  refine ((List.dropWhile_suffix _).sublist.filterMap _).trans ?_
  exact ((List.rtakeWhile_suffix _ _).sublist.filterMap _).trans (htime calls)

/-- Changes can be reported when there are some and every start of the window is long enough ago. -/
theorem isReady_behind (window : Nat) {now : Nat} {calls : List Call}
    (htimes : ((calls ++ [Call.ready now]).filterMap Call.time?).Pairwise (· ≤ ·)) :
    ((fresh window).behind calls).isReady now = true ↔
      restarts calls ≠ [] ∧ Rested window calls now := by
  rw [List.filterMap_append, List.pairwise_append] at htimes
  have hsub := restarts_sublist calls
  have hnow : ∀ t ∈ restarts calls, t ≤ now := fun t ht =>
    htimes.2.2 t (hsub.subset ht) now (by simp [Call.time?])
  obtain ⟨hpending, hlast⟩ := behind_fresh window calls
  rw [isReady_iff, hlast, window_behind, Ne, hpending]
  refine and_congr_right fun hne => ?_
  rcases List.eq_nil_or_concat' (restarts calls) with hnil | ⟨times, last, htail⟩
  · exact absurd hnil hne
  · have hsorted := htimes.1.sublist hsub
    rw [htail, List.pairwise_append] at hsorted
    rw [htail] at hnow
    rw [Rested, htail, List.getLast?_concat]
    have hlast := hnow last (by simp)
    constructor
    · rintro ⟨_, ⟨rfl⟩, hwindow⟩ t ht
      have hwindow : window ≤ now - last := hwindow
      have hle : t ≤ last := by
        rcases List.mem_append.1 ht with ht | ht
        · exact hsorted.2.2 t ht last List.mem_cons_self
        · exact (List.mem_singleton.1 ht).le
      omega
    · intro hrested
      have hwindow := hrested last (by simp)
      exact ⟨last, rfl, show window ≤ now - last by omega⟩

/-! ## Strays -/

/-- An entry in a sequence of calls: one of its own, or one that is put in between and only tells of
scratch files. -/
inductive Entry where
  /-- a call of the sequence -/
  | own (call : Call)
  /-- a call put in between -/
  | stray (paths : List Path) (now : Nat) (scratch : ∀ p ∈ paths, p.isScratch = true)

/-- The call of an entry. -/
def Entry.call : Entry → Call
  | .own c => c
  | .stray paths now _ => .add paths now

/-- The call of an entry that is no stray. -/
def Entry.own? : Entry → Option Call
  | .own c => some c
  | .stray .. => none

/-- All calls. -/
def allCalls (entries : List Entry) : List Call := entries.map Entry.call

/-- The calls that are no strays. -/
def ownCalls (entries : List Entry) : List Call := entries.filterMap Entry.own?

/-- The same answer, or a no where the other is a yes. -/
def Answer.Holds (a b : Answer) : Prop := a = b ∨ a = .ready false ∧ b = .ready true

theorem Answer.holds_ready {a b : Bool} (h : a = true → b = true) :
    Holds (.ready a) (.ready b) := by
  cases a with
  | true => exact .inl (congrArg _ (h rfl).symm)
  | false =>
    cases b with
    | true => exact .inr ⟨rfl, rfl⟩
    | false => exact .inl rfl

theorem allCalls_concat (entries : List Entry) (e : Entry) :
    allCalls (entries ++ [e]) = allCalls entries ++ [e.call] := List.map_append

theorem ownCalls_concat (entries : List Entry) (c : Call) :
    ownCalls (entries ++ [.own c]) = ownCalls entries ++ [c] := List.filterMap_append

theorem ownCalls_stray (entries : List Entry) (paths : List Path) (now : Nat)
    (scratch : ∀ p ∈ paths, p.isScratch = true) :
    ownCalls (entries ++ [.stray paths now scratch]) = ownCalls entries := by
  rw [ownCalls, List.filterMap_append]
  exact List.append_nil _

/-- Strays change nothing that is pending. -/
theorem pending_allCalls (window : Nat) (entries : List Entry) :
    ((fresh window).behind (allCalls entries)).pending =
      ((fresh window).behind (ownCalls entries)).pending := by
  induction entries using List.reverseRecOn with
  | nil => rfl
  | append_singleton entries e ih =>
    rw [allCalls_concat, behind_concat]
    cases e with
    | own c =>
      rw [ownCalls_concat, behind_concat, Entry.call]
      cases c with
      | add paths now => rw [perform, perform, add, add, ih]
      | ready | timeout => exact ih
      | take => rfl
    | stray paths now scratch =>
      have hnone : paths.filter (!·.isScratch) = [] := by
        simpa [List.filter_eq_nil_iff] using scratch
      rw [ownCalls_stray, Entry.call, perform, add, hnone]
      exact ih

/-- The window is started with strays whenever it is started without. -/
theorem restarts_subset (entries : List Entry) :
    restarts (ownCalls entries) ⊆ restarts (allCalls entries) := by
  induction entries using List.reverseRecOn with
  | nil => exact List.Subset.refl _
  | append_singleton entries e ih =>
    rw [allCalls_concat]
    cases e with
    | own c =>
      rw [ownCalls_concat, Entry.call]
      cases c with
      | add paths now =>
        rw [restarts_add, restarts_add]
        split
        · exact List.nil_subset _
        · next hown =>
          have hall : ¬(restarts (allCalls entries) = [] ∧ paths.all Path.isScratch = true) :=
            fun hall => hown ⟨List.subset_nil.1 (hall.1 ▸ ih), hall.2⟩
          rw [if_neg hall]
          exact List.append_subset.2
            ⟨fun t ht => List.mem_append_left _ (ih ht), List.subset_append_right _ _⟩
      | ready | timeout =>
        rw [restarts_idle (by simp) rfl, restarts_idle (by simp) rfl]
        exact ih
      | take =>
        rw [restarts_take, restarts_take]
        exact List.Subset.refl _
    | stray paths now scratch =>
      rw [ownCalls_stray, Entry.call, restarts_add]
      split
      · next hall => rwa [hall.1] at ih
      · exact fun t ht => List.mem_append_left _ (ih ht)

theorem ownCalls_sublist (entries : List Entry) :
    (ownCalls entries).Sublist (allCalls entries) := by
  induction entries with
  | nil => exact .slnil
  | cons e entries ih =>
    cases e with
    | own c => exact ih.cons_cons c
    | stray paths now scratch => exact ih.cons _

/-- Whether a batch is ready: with strays only if it is without, and alike just if each start of the
window by a stray is a full window ago when the other ones are. -/
theorem isReady_strayed (window : Nat) {now : Nat} {entries : List Entry}
    (htimes : ((allCalls entries ++ [Call.ready now]).filterMap Call.time?).Pairwise (· ≤ ·)) :
    (((fresh window).behind (allCalls entries)).isReady now = true →
      ((fresh window).behind (ownCalls entries)).isReady now = true) ∧
    (((fresh window).behind (allCalls entries)).isReady now =
        ((fresh window).behind (ownCalls entries)).isReady now ↔
      (Rested window (ownCalls entries) now → Rested window (allCalls entries) now)) := by
  have hall := isReady_behind window htimes
  have hown := isReady_behind window
    (htimes.sublist (((ownCalls_sublist entries).append (List.Sublist.refl _)).filterMap _))
  have hsome : restarts (allCalls entries) = [] ↔ restarts (ownCalls entries) = [] := by
    rw [← (behind_fresh window _).1, ← (behind_fresh window _).1, pending_allCalls]
  have hrested : Rested window (allCalls entries) now → Rested window (ownCalls entries) now :=
    fun h t ht => h t (restarts_subset entries ht)
  have hnone (h : restarts (allCalls entries) = []) : Rested window (allCalls entries) now := by
    rw [Rested, h]
    exact fun t ht => absurd ht List.not_mem_nil
  refine ⟨fun h => hown.2 ?_, ?_⟩
  · rw [hall, Ne, hsome] at h
    exact h.imp_right hrested
  · rw [Bool.eq_iff_iff, hall, hown]
    tauto

/-- A call of the sequence answers the same with strays, but for whether a batch is ready. -/
theorem perform_strayed (window : Nat) (entries : List Entry) {c : Call}
    (hready : ∀ now, c ≠ .ready now) :
    (((fresh window).behind (allCalls entries)).perform c).2 =
      (((fresh window).behind (ownCalls entries)).perform c).2 := by
  have hpending := pending_allCalls window entries
  cases c with
  | add paths now => rfl
  | ready now => exact absurd rfl (hready now)
  | timeout => rw [perform, perform, timeout, timeout, hpending, window_behind, window_behind]
  | take => rw [perform, perform, take, take, hpending]

/-- Every answer with strays is the one without, or a no in the place of a yes to whether a batch is
ready. All answers are the same exactly if, whenever a batch is asked for and the window was started
by the other calls long enough ago, each start by a stray is a full window ago as well. -/
theorem scratch_delay_iff (window : Nat) {entries : List Entry}
    (htimes : ((allCalls entries).filterMap Call.time?).Pairwise (· ≤ ·)) :
    List.Forall₂ Answer.Holds ((fresh window).answers (allCalls entries))
      ((fresh window).answers (ownCalls entries)) ∧
    ((fresh window).answers (allCalls entries) = (fresh window).answers (ownCalls entries) ↔
      ∀ before now, before ++ [.own (.ready now)] <+: entries →
        Rested window (ownCalls before) now → Rested window (allCalls before) now) := by
  induction entries using List.reverseRecOn with
  | nil => exact ⟨.nil, iff_of_true rfl fun before now h => by simp at h⟩
  | append_singleton entries e ih =>
    rw [allCalls_concat] at htimes ⊢
    have hbefore := htimes
    rw [List.filterMap_append, List.pairwise_append] at hbefore
    obtain ⟨hholds, hsame⟩ := ih hbefore.1
    rw [answers_concat]
    simp only [List.prefix_concat_iff, List.append_singleton_inj]
    cases e with
    | stray paths now scratch =>
      rw [ownCalls_stray, Entry.call, perform, Option.toList_none, List.append_nil]
      exact ⟨hholds, by simpa using hsame⟩
    | own c =>
      rw [ownCalls_concat, answers_concat, Entry.call]
      by_cases hready : ∃ now, c = .ready now
      · obtain ⟨now, rfl⟩ := hready
        obtain ⟨himp, hiff⟩ := isReady_strayed window htimes
        simp only [perform, Option.toList_some]
        refine ⟨List.rel_append hholds (.cons (Answer.holds_ready himp) .nil), ?_⟩
        rw [List.append_singleton_inj, hsame, Answer.ready.injEq, hiff]
        constructor
        · rintro ⟨hold, hnew⟩ before t (⟨rfl, ⟨⟩⟩ | hprefix)
          · exact hnew
          · exact hold before t hprefix
        · exact fun h => ⟨fun before t hprefix => h before t (.inr hprefix),
            h entries now (.inl ⟨rfl, rfl⟩)⟩
      · have hready : ∀ now, c ≠ .ready now := fun now h => hready ⟨now, h⟩
        rw [perform_strayed window entries hready, List.append_left_inj, hsame]
        refine ⟨List.rel_append hholds (List.forall₂_same.2 fun _ _ => .inl rfl), ?_⟩
        constructor
        · rintro hold before t (⟨rfl, ⟨⟩⟩ | hprefix)
          · exact absurd rfl (hready t)
          · exact hold before t hprefix
        · exact fun h before t hprefix => h before t (.inr hprefix)

/-- Strays before the first change, which start nothing, and among the changes, a window before the
batch is asked for. -/
def strayedEarly : List Entry :=
  [.stray [⟨".x.swp"⟩, ⟨"x~"⟩] 0 (by decide), .own (.add [⟨"same.vue"⟩] 5), .stray [] 7 (by simp),
    .own .timeout, .stray [⟨"y~"⟩] 50 (by decide)]

theorem scratch_delay_iff_early :
    ((allCalls (strayedEarly ++ [.own (.ready 350)])).filterMap Call.time?).Pairwise (· ≤ ·) ∧
    (fresh 300).answers (allCalls (strayedEarly ++ [.own (.ready 350)])) =
      (fresh 300).answers (ownCalls (strayedEarly ++ [.own (.ready 350)])) := by
  have htimes : ((allCalls (strayedEarly ++ [.own (.ready 350)])).filterMap Call.time?).Pairwise
      (· ≤ ·) := by decide
  refine ⟨htimes, (scratch_delay_iff 300 htimes).2.2 fun before now hprefix _ => ?_⟩
  rcases List.prefix_concat_iff.1 hprefix with heq | hprefix
  · obtain ⟨rfl, hnow⟩ := List.append_singleton_inj.1 heq
    cases hnow
    have hrestarts : restarts (allCalls strayedEarly) = [5, 7, 50] := by decide
    rw [Rested, hrestarts]
    decide
  · have hmem := hprefix.subset (List.mem_append_right _ List.mem_cons_self)
    simp [strayedEarly] at hmem

/-- A stray while a change is pending, less than a window before the batch is asked for. -/
def strayedLate : List Entry :=
  [.own (.add [⟨"a.vue"⟩] 0), .stray [⟨"x~"⟩] 200 (by decide), .own (.ready 300)]

/-- A scratch file keeps a batch waiting that would be ready without it. -/
theorem scratch_file_delays :
    ((allCalls strayedLate).filterMap Call.time?).Pairwise (· ≤ ·) ∧
      (fresh 300).answers (allCalls strayedLate) = [.ready false] ∧
      (fresh 300).answers (ownCalls strayedLate) = [.ready true] := by
  decide

end Debouncer

end StaticSite
