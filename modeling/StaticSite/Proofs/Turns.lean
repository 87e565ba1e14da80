import Mathlib.Data.List.Basic
import Mathlib.Logic.Function.Basic
import StaticSite.Preview.Gate

/-!
# Callers at the rebuild gate

Any number of callers want builds, each at any time. Each of the two doors is passed by one caller at
a time; between the doors a caller starts a build, and the build ends, well or not, while others come
and are turned away. `Run` is whatever can happen in this way: a list of events, with the answers of
the doors.

At any time the gate is quiet, or one caller holds it (`Run.settled`). What a step does is read off
from this once, in `Quiet.step` and `Held.step`. It follows that builds do not overlap, that a request
is **never lost** (either a build has started since, or one is due: `Run.due`), and that all requests
that come in one turn of a caller, which is from one door to the next, cause **one** further build
(`Run.turn`).
-/

namespace StaticSite

namespace Gate

/-- Where a caller is. -/
inductive Place where
  /-- not at the gate -/
  | away
  /-- behind a door, about to start a build -/
  | ready
  /-- making a build -/
  | busy
  /-- done with a build, in front of the second door -/
  | over
  deriving DecidableEq

/-- The gate and its callers. -/
structure Yard (C : Type) where
  /-- the gate -/
  gate : Gate := {}
  /-- where each caller is -/
  place : C → Place := fun _ => .away

/-- What can happen at the gate. -/
inductive Event (C : Type) where
  /-- a caller comes to the first door, which lets it in or turns it away -/
  | enter (c : C) (admitted : Bool)
  /-- a caller starts a build -/
  | start (c : C)
  /-- the build of a caller ends, with or without success -/
  | finish (c : C) (succeeded : Bool)
  /-- a caller comes to the second door, which has it build again or lets it go -/
  | settle (c : C) (again : Bool)
  deriving DecidableEq

/-- Whether a build starts. -/
def Event.isStart {C : Type} : Event C → Bool
  | .start _ => true
  | _ => false

variable {C : Type} [DecidableEq C]

namespace Yard

/-- A caller is building from the first door on until the second one lets it go. -/
def Building (s : Yard C) (c : C) : Prop := s.place c ≠ .away

/-- The yard with a caller elsewhere. -/
def move (s : Yard C) (g : Gate) (c : C) (p : Place) : Yard C := ⟨g, Function.update s.place c p⟩

@[simp] theorem gate_move (s : Yard C) (g : Gate) (c : C) (p : Place) : (s.move g c p).gate = g :=
  rfl

@[simp] theorem place_move_self (s : Yard C) (g : Gate) (c : C) (p : Place) :
    (s.move g c p).place c = p := Function.update_self ..

@[simp] theorem place_move_of_ne (s : Yard C) (g : Gate) {c d : C} (p : Place) (h : d ≠ c) :
    (s.move g c p).place d = s.place d := Function.update_of_ne h ..

end Yard

open Yard

/-- One event and what it changes. Callers pass a door in one step with the gate. -/
inductive Step : Yard C → Event C → Yard C → Prop where
  /-- let in at the first door -/
  | accept {s : Yard C} {g : Gate} {c : C} (hplace : s.place c = .away)
      (hdoor : s.gate.enter = (g, true)) : Step s (.enter c true) (s.move g c .ready)
  /-- turned away at the first door -/
  | refuse {s : Yard C} {g : Gate} {c : C} (hplace : s.place c = .away)
      (hdoor : s.gate.enter = (g, false)) : Step s (.enter c false) (s.move g c .away)
  /-- the build starts -/
  | start {s : Yard C} {c : C} (hplace : s.place c = .ready) :
      Step s (.start c) (s.move s.gate c .busy)
  /-- the build ends -/
  | finish {s : Yard C} {c : C} {succeeded : Bool} (hplace : s.place c = .busy) :
      Step s (.finish c succeeded) (s.move s.gate c .over)
  /-- sent back to build again at the second door -/
  | again {s : Yard C} {g : Gate} {c : C} (hplace : s.place c = .over)
      (hdoor : s.gate.settle = (g, true)) : Step s (.settle c true) (s.move g c .ready)
  /-- let go at the second door -/
  | leave {s : Yard C} {g : Gate} {c : C} (hplace : s.place c = .over)
      (hdoor : s.gate.settle = (g, false)) : Step s (.settle c false) (s.move g c .away)

/-- Events one after the other. -/
inductive Run : Yard C → List (Event C) → Yard C → Prop where
  /-- nothing happens -/
  | nil {s : Yard C} : Run s [] s
  /-- one more event in front -/
  | cons {s t u : Yard C} {e : Event C} {es : List (Event C)} (hstep : Step s e t)
      (hrun : Run t es u) : Run s (e :: es) u

variable {s t u : Yard C} {e : Event C} {es : List (Event C)} {c : C}

theorem Run.append {fs : List (Event C)} (h : Run s es t) (h' : Run t fs u) :
    Run s (es ++ fs) u := by
  induction h with
  | nil => exact h'
  | cons hstep _ ih => exact .cons hstep (ih h')

theorem Run.split {fs : List (Event C)} (h : Run s (es ++ fs) u) :
    ∃ t, Run s es t ∧ Run t fs u := by
  induction es generalizing s with
  | nil => exact ⟨s, .nil, h⟩
  | cons e es ih =>
    cases h with
    | cons hstep hrun =>
      obtain ⟨t, hes, hfs⟩ := ih hrun
      exact ⟨t, .cons hstep hes, hfs⟩

/-! ## The doors -/

theorem enter_eq_true {g g' : Gate} (h : g.enter = (g', true)) :
    g.state ≠ .building ∧ g' = { g with state := .building } := by
  rw [enter] at h
  split at h
  · cases h
  · next hstate => exact ⟨hstate, (congrArg Prod.fst h).symm⟩

theorem enter_eq_false {g g' : Gate} (h : g.enter = (g', false)) :
    g.state = .building ∧ g' = { g with pending := true } := by
  rw [enter] at h
  split at h
  · next hstate => exact ⟨hstate, (congrArg Prod.fst h).symm⟩
  · cases h

theorem settle_eq_true {g g' : Gate} (h : g.settle = (g', true)) :
    g.pending = true ∧ g' = { g with pending := false } := by
  rw [settle] at h
  split at h
  · next hpending => exact ⟨hpending, (congrArg Prod.fst h).symm⟩
  · cases h

theorem settle_eq_false {g g' : Gate} (h : g.settle = (g', false)) :
    g.pending = false ∧ g' = { g with state := .watching } := by
  rw [settle] at h
  split at h
  · cases h
  · next hpending => exact ⟨Bool.eq_false_iff.2 hpending, (congrArg Prod.fst h).symm⟩

/-! ## Who holds the gate -/

/-- Nobody is building, and nothing is asked for. -/
structure Quiet (s : Yard C) : Prop where
  /-- the gate knows of no build -/
  state : s.gate.state ≠ .building
  /-- no other build is asked for -/
  pending : s.gate.pending = false
  /-- nobody is building -/
  away : ∀ c, s.place c = .away

/-- One caller is building, and nobody else is. -/
structure Held (s : Yard C) (c : C) : Prop where
  /-- the gate knows of it -/
  state : s.gate.state = .building
  /-- the caller is building -/
  building : s.Building c
  /-- the others are not -/
  alone : ∀ d, d ≠ c → s.place d = .away

omit [DecidableEq C] in
theorem Held.eq_of_building {d : C} (h : Held s c) (hd : s.Building d) : d = c :=
  not_not.1 fun hne => hd (h.alone d hne)

/-- The holder of the gate goes on holding it wherever it is, but not away. -/
theorem Held.move {g : Gate} {p : Place} (h : Held s c) (hg : g.state = .building)
    (hp : p ≠ .away) : Held (s.move g c p) c where
  state := hg
  building := by rwa [Building, place_move_self]
  alone d hd := by rw [place_move_of_ne s g p hd, h.alone d hd]

/-- At a quiet gate nothing can happen but that a caller is let in. -/
theorem Quiet.step (h : Quiet s) (hstep : Step s e t) :
    ∃ c, e = .enter c true ∧ Held t c ∧ t.place c = .ready ∧ t.gate.pending = false := by
  cases hstep with
  | @accept g c hplace hdoor =>
    obtain ⟨-, rfl⟩ := enter_eq_true hdoor
    refine ⟨c, rfl, ⟨rfl, ?_, fun d hd => ?_⟩, ?_, h.pending⟩
    · rw [Building, place_move_self]
      decide
    · rw [place_move_of_ne _ _ _ hd, h.away d]
    · rw [place_move_self]
  | refuse hplace hdoor => exact absurd (enter_eq_false hdoor).1 h.state
  | start hplace => rw [h.away] at hplace; cases hplace
  | finish hplace => rw [h.away] at hplace; cases hplace
  | again hplace => rw [h.away] at hplace; cases hplace
  | leave hplace => rw [h.away] at hplace; cases hplace

/-- What can happen while a caller holds the gate: another one is turned away, the build of the
holder starts or ends, or the holder comes to the second door. -/
inductive HeldStep (s : Yard C) (c : C) : Event C → Yard C → Prop where
  /-- another caller is turned away -/
  | refuse (d : C) (hne : d ≠ c) :
      HeldStep s c (.enter d false) (s.move { s.gate with pending := true } d .away)
  /-- the build starts -/
  | start (hplace : s.place c = .ready) : HeldStep s c (.start c) (s.move s.gate c .busy)
  /-- the build ends -/
  | finish (succeeded : Bool) (hplace : s.place c = .busy) :
      HeldStep s c (.finish c succeeded) (s.move s.gate c .over)
  /-- another build was asked for -/
  | again (hplace : s.place c = .over) (hpending : s.gate.pending = true) :
      HeldStep s c (.settle c true) (s.move { s.gate with pending := false } c .ready)
  /-- no other build was asked for -/
  | leave (hplace : s.place c = .over) (hpending : s.gate.pending = false) :
      HeldStep s c (.settle c false) (s.move { s.gate with state := .watching } c .away)

theorem Held.step (h : Held s c) (hstep : Step s e t) : HeldStep s c e t := by
  have hself : ∀ {d : C} {p : Place}, s.place d = p → p ≠ .away → d = c :=
    fun hd hp => h.eq_of_building (by rwa [Building, hd])
  cases hstep with
  | accept hplace hdoor => exact absurd h.state (enter_eq_true hdoor).1
  | @refuse g d hplace hdoor =>
    obtain ⟨-, rfl⟩ := enter_eq_false hdoor
    exact .refuse d fun heq => h.building (heq ▸ hplace)
  | start hplace =>
    obtain rfl := hself hplace (by decide)
    exact .start hplace
  | finish hplace =>
    obtain rfl := hself hplace (by decide)
    exact .finish _ hplace
  | again hplace hdoor =>
    obtain rfl := hself hplace (by decide)
    obtain ⟨hpending, rfl⟩ := settle_eq_true hdoor
    exact .again hplace hpending
  | leave hplace hdoor =>
    obtain rfl := hself hplace (by decide)
    obtain ⟨hpending, rfl⟩ := settle_eq_false hdoor
    exact .leave hplace hpending

theorem HeldStep.held (h : Held s c) (hstep : HeldStep s c e t) (he : e ≠ .settle c false) :
    Held t c := by
  cases hstep with
  | refuse d hne =>
    refine ⟨h.state, ?_, fun d' hd' => ?_⟩
    · rw [Building, place_move_of_ne _ _ _ hne.symm]
      exact h.building
    · by_cases hd : d' = d
      · rw [hd, place_move_self]
      · rw [place_move_of_ne _ _ _ hd, h.alone d' hd']
  | start => exact h.move h.state (by decide)
  | finish => exact h.move h.state (by decide)
  | again => exact h.move h.state (by decide)
  | leave => exact absurd rfl he

theorem HeldStep.quiet (h : Held s c) (hstep : HeldStep s c (.settle c false) t) : Quiet t := by
  cases hstep with
  | leave hplace hpending =>
    refine ⟨by simp, hpending, fun d => ?_⟩
    by_cases hd : d = c
    · rw [hd, place_move_self]
    · rw [place_move_of_ne _ _ _ hd, h.alone d hd]

/-- **Quiet or held.** The gate is quiet or held by one caller, whatever has happened. -/
theorem Run.settled (h : Run s es t) (hs : Quiet s ∨ ∃ c, Held s c) :
    Quiet t ∨ ∃ c, Held t c := by
  induction h with
  | nil => exact hs
  | @cons s u t e es hstep hrun ih =>
    apply ih
    obtain hquiet | ⟨c, hheld⟩ := hs
    · obtain ⟨c, -, hheld, -⟩ := hquiet.step hstep
      exact .inr ⟨c, hheld⟩
    · by_cases he : e = .settle c false
      · subst he
        exact .inl ((hheld.step hstep).quiet hheld)
      · exact .inr ⟨c, (hheld.step hstep).held hheld he⟩

omit [DecidableEq C] in
theorem quiet_start : Quiet ({} : Yard C) := ⟨nofun, rfl, fun _ => rfl⟩

/-- Whoever passes a door to build finds nothing asked for. -/
theorem ready_of_door (hs : Quiet s ∨ ∃ c, Held s c) (hstep : Step s e t)
    (he : e = .enter c true ∨ e = .settle c true) :
    Held t c ∧ t.place c = .ready ∧ t.gate.pending = false := by
  obtain hquiet | ⟨d, hheld⟩ := hs
  · obtain ⟨d, rfl, h⟩ := hquiet.step hstep
    obtain he | he := he
    · cases he
      exact h
    · cases he
  · have h := hheld.step hstep
    have hnext : e ≠ .settle d false → Held t d := h.held hheld
    cases h with
    | again =>
      obtain he | he := he
      · cases he
      · cases he
        exact ⟨hnext (by simp), place_move_self .., rfl⟩
    | refuse => obtain he | he := he <;> cases he
    | start => obtain he | he := he <;> cases he
    | finish => obtain he | he := he <;> cases he
    | leave => obtain he | he := he <;> cases he

/-! ## No request is lost -/

/-- A build is due: one is asked for, or a caller is about to start one. -/
def Due (s : Yard C) : Prop := s.gate.pending = true ∨ ∃ c, s.place c = .ready

omit [DecidableEq C] in
theorem Quiet.not_due (h : Quiet s) : ¬ Due s := by
  rintro (hpending | ⟨c, hready⟩)
  · rw [h.pending] at hpending
    cases hpending
  · rw [h.away] at hready
    cases hready

/-- Every request makes a build due, whether it is let in or turned away. -/
theorem due_of_enter {admitted : Bool} (h : Step s (.enter c admitted) t) : Due t := by
  cases h with
  | accept => exact .inr ⟨c, place_move_self ..⟩
  | refuse hplace hdoor =>
    obtain ⟨-, rfl⟩ := enter_eq_false hdoor
    exact .inl rfl

/-- A build that is due stays so until one starts. -/
theorem Due.step (h : Due s) (hs : Quiet s ∨ ∃ c, Held s c) (hstep : Step s e t)
    (he : e.isStart = false) : Due t := by
  obtain hquiet | ⟨c, hheld⟩ := hs
  · exact absurd h hquiet.not_due
  · have hready : ∀ {d : C}, s.place d = .ready → s.place c = .ready := fun hd => by
      rwa [← hheld.eq_of_building (by rw [Building, hd]; decide)]
    cases hheld.step hstep with
    | refuse => exact .inl rfl
    | start => cases he
    | finish _ hplace =>
      refine h.imp id fun ⟨d, hd⟩ => ?_
      rw [hready hd] at hplace
      cases hplace
    | again => exact .inr ⟨c, place_move_self ..⟩
    | leave hplace hpending =>
      obtain hdue | ⟨d, hd⟩ := h
      · rw [hpending] at hdue
        cases hdue
      · rw [hready hd] at hplace
        cases hplace

theorem Run.due (h : Run s es t) (hs : Quiet s ∨ ∃ c, Held s c) (hdue : Due s) :
    (∃ c, .start c ∈ es) ∨ Due t := by
  induction h with
  | nil => exact .inr hdue
  | @cons s u t e es hstep hrun ih =>
    have hu := (Run.cons hstep .nil).settled hs
    cases he : e.isStart with
    | true =>
      cases e with
      | start c => exact .inl ⟨c, List.mem_cons_self⟩
      | _ => cases he
    | false =>
      exact (ih hu (hdue.step hs hstep he)).imp_left fun ⟨c, hc⟩ => ⟨c, List.mem_cons_of_mem _ hc⟩

/-! ## One build in a turn -/

/-- How many builds a caller has to start before it comes to the second door. -/
def Place.owed : Place → Nat
  | .ready => 1
  | _ => 0

/-- **One turn.** Until the holder of the gate comes to the second door, it starts the one build that
it has to, and another one is asked for exactly if it was before or a caller is turned away. -/
theorem Run.turn (h : Run s es t) (hs : Held s c) (hnone : ∀ again, .settle c again ∉ es) :
    Held t c ∧ es.countP Event.isStart + (t.place c).owed = (s.place c).owed ∧
      (t.gate.pending = true ↔ s.gate.pending = true ∨ ∃ d, .enter d false ∈ es) := by
  induction h with
  | nil => exact ⟨hs, by simp, by simp⟩
  | @cons s u t e es hstep hrun ih =>
    have hheld := hs.step hstep
    have hu := hheld.held hs fun heq => hnone false (heq ▸ List.mem_cons_self)
    obtain ⟨ht, hcount, hpending⟩ := ih hu fun again hmem => hnone again (List.mem_cons_of_mem _ hmem)
    refine ⟨ht, ?_, ?_⟩
    · cases hheld with
      | refuse d hne => simpa [Event.isStart, place_move_of_ne _ _ _ hne.symm] using hcount
      | start hplace =>
        rw [hplace, List.countP_cons_of_pos rfl]
        simp only [place_move_self, Place.owed] at hcount ⊢
        omega
      | finish _ hplace => simpa [Event.isStart, hplace, Place.owed] using hcount
      | again => exact absurd List.mem_cons_self (hnone true)
      | leave => exact absurd List.mem_cons_self (hnone false)
    · cases hheld with
      | refuse d => simp [hpending]
      | start => simp [hpending]
      | finish => simp [hpending]
      | again => exact absurd List.mem_cons_self (hnone true)
      | leave => exact absurd List.mem_cons_self (hnone false)

/-- A caller at the second door is asked to build again exactly if another build is asked for. -/
theorem settle_answer {again : Bool} (h : Step s (.settle c again) t) :
    s.place c = .over ∧ (again = true ↔ s.gate.pending = true) := by
  cases h with
  | again hplace hdoor => exact ⟨hplace, by simp [(settle_eq_true hdoor).1]⟩
  | leave hplace hdoor => exact ⟨hplace, by simp [(settle_eq_false hdoor).1]⟩

/-- From a door to the second door, a caller starts one build, and is to build again exactly if
somebody was turned away meanwhile. -/
theorem Run.one_build {again : Bool} {after : List (Event C)} (hs : Held s c)
    (hready : s.place c = .ready) (hpending : s.gate.pending = false)
    (h : Run s (es ++ .settle c again :: after) u) (hnone : ∀ again, .settle c again ∉ es) :
    es.countP Event.isStart = 1 ∧ (again = true ↔ ∃ d, .enter d false ∈ es) := by
  obtain ⟨t, hes, hafter⟩ := h.split
  obtain ⟨-, hcount, hasked⟩ := hes.turn hs hnone
  cases hafter with
  | cons hdoor _ =>
    obtain ⟨hover, hanswer⟩ := settle_answer hdoor
    rw [hready, hover] at hcount
    exact ⟨hcount, by rw [hanswer, hasked, hpending]; simp⟩

/-- Whoever starts a build holds the gate. -/
theorem held_of_start (hs : Quiet s ∨ ∃ c, Held s c) (hstep : Step s (.start c) t) : Held t c := by
  obtain hquiet | ⟨d, hheld⟩ := hs
  · obtain ⟨d, hd, -⟩ := hquiet.step hstep
    cases hd
  · have h := hheld.step hstep
    have hnext := h.held hheld (by simp)
    cases h
    exact hnext

/-- A caller that builds while somebody is turned away builds again, and once only for all of them:
a third build is for those that are turned away later. -/
theorem Run.further_build {during after : List (Event C)} {again : Bool}
    (h : Run s (.start c :: (during ++ .settle c again :: after)) u)
    (hs : Quiet s ∨ ∃ c, Held s c) (hnone : ∀ again, .settle c again ∉ during)
    (hrefused : ∃ d, .enter d false ∈ during) :
    again = true ∧ ∀ next again' rest, after = next ++ .settle c again' :: rest →
      (∀ again, .settle c again ∉ next) →
      next.countP Event.isStart = 1 ∧ (again' = true ↔ ∃ d, .enter d false ∈ next) := by
  cases h with
  | cons hstart hrun =>
    obtain ⟨t, hduring, hrest⟩ := hrun.split
    obtain ⟨ht, -, hasked⟩ := hduring.turn (held_of_start hs hstart) hnone
    cases hrest with
    | cons hdoor hafter =>
      have hagain := (settle_answer hdoor).2.2 (hasked.2 (.inr hrefused))
      subst hagain
      obtain ⟨hnext, hready, hpending⟩ := ready_of_door (.inr ⟨c, ht⟩) hdoor (.inr rfl)
      refine ⟨rfl, fun next again' rest heq hnone => ?_⟩
      exact Run.one_build hnext hready hpending (heq ▸ hafter) hnone

/-! ## The gate and its callers -/

/-- **The gate serializes builds and loses no request.** After anything that callers can do:

* at most one caller is building;
* another build is asked for only while the gate is building, which it is exactly while a caller is;
* a caller is turned away only while another one is building;
* when no caller is building, a build has started after every request;
* if callers are turned away between the start of a build and the second door, however many, the maker
  builds again, once: a third build is for callers that were turned away since. -/
theorem gate_serializes_builds {events : List (Event C)} (h : Run {} events s) :
    (∀ c d, s.Building c → s.Building d → c = d) ∧
    (s.gate.pending = true → s.gate.state = .building) ∧
    (s.gate.state = .building ↔ ∃ c, s.Building c) ∧
    (∀ c t, Step s (.enter c false) t → ∃ d, d ≠ c ∧ s.Building d) ∧
    ((∀ c, ¬ s.Building c) → ∀ before c admitted after,
      events = before ++ .enter c admitted :: after → ∃ d, .start d ∈ after) ∧
    (∀ before c during again after,
      events = before ++ .start c :: (during ++ .settle c again :: after) →
      (∀ again, .settle c again ∉ during) → (∃ d, .enter d false ∈ during) →
      again = true ∧ ∀ next again' rest, after = next ++ .settle c again' :: rest →
        (∀ again, .settle c again ∉ next) →
        next.countP Event.isStart = 1 ∧ (again' = true ↔ ∃ d, .enter d false ∈ next)) := by
  have hsettled := h.settled (.inl quiet_start)
  refine ⟨fun c d hc hd => ?_, fun hpending => ?_, ?_, fun c t hstep => ?_,
    fun hnone before c admitted after heq => ?_,
    fun before c during again after heq hnone hrefused => ?_⟩
  · obtain hquiet | ⟨holder, hheld⟩ := hsettled
    · exact absurd (hquiet.away c) hc
    · rw [hheld.eq_of_building hc, hheld.eq_of_building hd]
  · obtain hquiet | ⟨holder, hheld⟩ := hsettled
    · rw [hquiet.pending] at hpending
      cases hpending
    · exact hheld.state
  · obtain hquiet | ⟨holder, hheld⟩ := hsettled
    · exact iff_of_false hquiet.state fun ⟨c, hc⟩ => hc (hquiet.away c)
    · exact iff_of_true hheld.state ⟨holder, hheld.building⟩
  · obtain hquiet | ⟨holder, hheld⟩ := hsettled
    · obtain ⟨d, hd, -⟩ := hquiet.step hstep
      cases hd
    · cases hheld.step hstep with
      | refuse _ hne => exact ⟨holder, hne.symm, hheld.building⟩
  · -- with nobody building, nothing is due, so a build has started since
    subst heq
    obtain ⟨u, hbefore, hrest⟩ := h.split
    cases hrest with
    | cons hstep hafter =>
      have hv := (Run.cons hstep .nil).settled (hbefore.settled (.inl quiet_start))
      refine (hafter.due hv (due_of_enter hstep)).resolve_right ?_
      obtain hquiet | ⟨holder, hheld⟩ := hsettled
      · exact hquiet.not_due
      · exact absurd hheld.building (hnone holder)
  · subst heq
    obtain ⟨u, hbefore, hrest⟩ := h.split
    exact hrest.further_build (hbefore.settled (.inl quiet_start)) hnone hrefused

/-- Two callers are turned away while the build of another one runs, and fails. -/
def twoTurnedAway : List (Event (Fin 3)) :=
  [.enter 0 true, .start 0, .enter 1 false, .enter 2 false, .finish 0 false, .settle 0 true,
    .start 0, .finish 0 true, .settle 0 false]

/-- The failed build is made once more for both of them. -/
theorem gate_serializes_builds_twoTurnedAway : ∃ s : Yard (Fin 3), Run {} twoTurnedAway s ∧
    (∀ c, ¬ s.Building c) ∧ (∃ d, Event.start d ∈ twoTurnedAway.drop 4) ∧
    ((twoTurnedAway.drop 6).take 2).countP Event.isStart = 1 := by
  have hrun : Run {} twoTurnedAway _ :=
    .cons (.accept rfl rfl) (.cons (.start rfl) (.cons (.refuse rfl rfl) (.cons (.refuse rfl rfl)
      (.cons (.finish rfl) (.cons (.again rfl rfl) (.cons (.start rfl) (.cons (.finish rfl)
        (.cons (.leave rfl rfl) .nil))))))))
  obtain ⟨-, -, hbuilding, -, hserved, hfurther⟩ := gate_serializes_builds hrun
  have hquiet := fun c hc => (by decide : ¬ _) (hbuilding.2 ⟨c, hc⟩)
  refine ⟨_, hrun, hquiet, hserved hquiet (twoTurnedAway.take 3) 2 false _ rfl, ?_⟩
  exact ((hfurther [.enter 0 true] 0 ((twoTurnedAway.drop 2).take 3) true (twoTurnedAway.drop 6) rfl
    (by decide) ⟨1, by decide⟩).2 _ false [] rfl (by decide)).1

/-! ## One caller after the other -/

/-- Requests that come while a build runs are turned away. -/
theorem exists_run_during {asker : C} (hs : Held s c) (hne : asker ≠ c) (a : Attempt) :
    ∃ es t, Run s es t ∧ Held t c ∧ t.gate = (s.gate.during a).1 ∧ t.place = s.place ∧
      es.countP Event.isStart = 0 := by
  rw [during]
  induction a.requests with
  | zero => exact ⟨[], s, .nil, hs, rfl, rfl, rfl⟩
  | succ n ih =>
    obtain ⟨es, t, hrun, ht, hgate, hplace, hcount⟩ := ih
    have henter : t.gate.enter = ({ t.gate with pending := true }, false) := if_pos ht.state
    have haway := ht.alone asker hne
    have hstep := Step.refuse haway henter
    refine ⟨_, _, hrun.append (.cons hstep .nil), (ht.step hstep).held ht (by simp), ?_, ?_, ?_⟩
    · rw [List.range_succ, List.foldl_append, List.foldl_cons, List.foldl_nil]
      generalize List.foldl _ _ _ = folded at hgate ⊢
      obtain ⟨g, answers⟩ := folded
      obtain rfl : t.gate = g := hgate
      dsimp only
      rw [henter]
      rfl
    · rw [move, ← haway, Function.update_eq_self, hplace]
    · rw [List.countP_append, hcount]
      rfl

/-- A build from its start to its end, with requests meanwhile. -/
theorem exists_run_build {asker : C} (hs : Held s c) (hready : s.place c = .ready) (hne : asker ≠ c)
    (a : Attempt) : ∃ es t, Run s es t ∧ Held t c ∧ t.place c = .over ∧
      t.gate = (s.gate.during a).1 ∧ es.countP Event.isStart = 1 := by
  have hstart := Step.start hready
  have hbusy := (hs.step hstart).held hs (by simp)
  obtain ⟨es, t, hrun, ht, hgate, hplace, hcount⟩ := exists_run_during hbusy hne a
  have hfinish : Step t (.finish c a.failure?.isNone) (t.move t.gate c .over) :=
    .finish (by rw [hplace, place_move_self])
  refine ⟨_, _, .cons hstart (hrun.append (.cons hfinish .nil)),
    (ht.step hfinish).held ht (by simp), place_move_self .., hgate, ?_⟩
  rw [List.countP_cons_of_pos rfl, List.countP_append, hcount]
  rfl

/-- The builds that a caller makes by itself, with all requests from another one. -/
theorem exists_run_make {asker : C} (hs : Held s c) (hready : s.place c = .ready) (hne : asker ≠ c)
    (attempts : List Attempt) : ∃ es t, Run s es t ∧ Quiet t ∧
      t.gate = (s.gate.make attempts).1 ∧
      es.countP Event.isStart = (s.gate.make attempts).2.length := by
  induction attempts generalizing s with
  | nil =>
    -- without a word about them, builds are free of requests
    obtain ⟨es, t, hrun, ht, hover, hgate, hcount⟩ := exists_run_build hs hready hne {}
    obtain hgate : t.gate = s.gate := hgate
    rw [make, ← hgate]
    rcases hdoor : t.gate.settle with ⟨g, _ | _⟩
    · have hstep := Step.leave hover hdoor
      refine ⟨_, _, hrun.append (.cons hstep .nil), (ht.step hstep).quiet ht, rfl, ?_⟩
      rw [List.countP_append, hcount]
      rfl
    · have hstep := Step.again hover hdoor
      obtain ⟨fs, u, hrest, hu, huover, hugate, hfs⟩ :=
        exists_run_build ((ht.step hstep).held ht (by simp)) (place_move_self ..) hne {}
      obtain rfl : u.gate = g := hugate
      have hfree : u.gate.pending = false := by rw [(settle_eq_true hdoor).2]
      have hlast : u.gate.settle = ({ u.gate with state := .watching }, false) :=
        if_neg (Bool.eq_false_iff.1 hfree)
      have hleave := Step.leave huover hlast
      refine ⟨_, _, hrun.append (.cons hstep (hrest.append (.cons hleave .nil))),
        (hu.step hleave).quiet hu, ?_, ?_⟩
      · dsimp only
        rw [hlast]
        rfl
      · rw [List.countP_append, hcount, List.countP_cons_of_neg (by simp [Event.isStart]),
          List.countP_append, hfs]
        rfl
  | cons a attempts ih =>
    obtain ⟨es, t, hrun, ht, hover, hgate, hcount⟩ := exists_run_build hs hready hne a
    rw [make]
    generalize s.gate.during a = during at hgate ⊢
    obtain ⟨g, answers⟩ := during
    obtain rfl : t.gate = g := hgate
    dsimp only
    rcases hdoor : t.gate.settle with ⟨g', _ | _⟩
    · have hstep := Step.leave hover hdoor
      refine ⟨_, _, hrun.append (.cons hstep .nil), (ht.step hstep).quiet ht, rfl, ?_⟩
      rw [List.countP_append, hcount]
      rfl
    · have hstep := Step.again hover hdoor
      obtain ⟨fs, u, hrest, hu, hugate, hfs⟩ :=
        ih ((ht.step hstep).held ht (by simp)) (place_move_self ..)
      refine ⟨_, _, hrun.append (.cons hstep hrest), hu, hugate, ?_⟩
      rw [List.countP_append, hcount, List.countP_cons_of_neg (by simp [Event.isStart]), hfs]
      simp [Nat.add_comm]

/-- **One caller after the other.** What the gate does with a caller whose builds are known beforehand,
and with another one that comes while they run, is one of the things that callers can do. -/
theorem exists_run_eq {asker : C} (hs : Quiet s) (hne : asker ≠ c) (attempts : List Attempt) :
    ∃ es t, Run s es t ∧ Quiet t ∧ (s.gate.run attempts).2.1 = true ∧
      t.gate = (s.gate.run attempts).1 ∧
      es.countP Event.isStart = (s.gate.run attempts).2.2.length := by
  have henter : s.gate.enter = ({ s.gate with state := .building }, true) := if_neg hs.state
  have hstep := Step.accept (hs.away c) henter
  obtain ⟨hheld, hready, -⟩ := ready_of_door (.inl hs) hstep (.inl rfl)
  obtain ⟨es, t, hrun, ht, hgate, hcount⟩ := exists_run_make hheld hready hne attempts
  rw [run, henter]
  refine ⟨_, _, .cons hstep hrun, ht, rfl, hgate, ?_⟩
  rw [List.countP_cons_of_neg (by simp [Event.isStart]), hcount]
  rfl

end Gate

end StaticSite
