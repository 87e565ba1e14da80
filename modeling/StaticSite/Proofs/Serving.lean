import Mathlib.Data.List.ReduceOption
import StaticSite.Preview.Clients
import StaticSite.Preview.Server
import StaticSite.Proofs.Untouched

/-!
# Serving a site

Whether a preview starts is up to its interface and its ports alone. How it starts or why it does not
is told by `Outcome`, and what the first build does plays no part in that but to be reported
(`start_outcome`).

While the sources are watched the site is built again and again. None of these builds takes a
directory away, so the watcher of the output keeps its own whatever they run into (`started_keeps`).

Clients come and go, and a broadcast is for those who are there: each of them is sent a message, which
nobody else gets, and they are counted (`broadcast_reaches`). The invariant is `Clients.Follows`: the
subscribers of the hub are the listeners of those clients.
-/

namespace StaticSite

/-- A gate at rest is at rest again behind a build that nobody has disturbed. -/
theorem Gate.run_alone {g : Gate} (hstate : g.state ≠ .building) (hpending : g.pending = false)
    {attempt : Gate.Attempt} (hquiet : attempt.requests = 0) :
    (g.run [attempt]).1 = { state := .watching } := by
  obtain ⟨state, pending⟩ := g
  obtain rfl : pending = false := hpending
  simp [run, enter, hstate, make, during, hquiet, settle]

/-- A build without cleaning takes no directory away. -/
theorem Site.isDirectory_build {d : Disk} {settings : BuildSettings} {l : Location}
    (hclean : settings.clean = false) (reloadPort? : Option Nat) (runtime : Runtime)
    (h : d.tree.isDirectory l = true) :
    (build d settings reloadPort? runtime).1.tree.isDirectory l = true := by
  have hswept : swept d settings = d := if_neg fun hboth => by simp [hclean] at hboth
  rw [build]
  rcases renderAll d settings reloadPort? runtime with e | rendered
  · exact h
  · obtain ⟨files, hfilled, -⟩ | hsame := deliver_filledIn d settings rendered runtime
    · rw [hswept] at hfilled
      exact hfilled.fills.isDirectory h
    · exact hsame.symm ▸ h

namespace Preview

variable {d : Disk} {s : Settings} {isFree : Nat → Bool} {runtime : Runtime}

/-! ## The start -/

/-- How the start of a preview ends, whose first build has this result and leaves this disk. -/
inductive Outcome (d : Disk) (s : Settings) (isFree : Nat → Bool)
    (build : Except BuildError BuildSummary) : Except StartError Started → Prop where
  /-- the interface is no address -/
  | interface (haddress : Address.isAddress s.serve.interface = false) :
      Outcome d s isFree build (.error (.interface s.serve.interface))
  /-- the port for reload messages is taken -/
  | reloadPort {port : Nat} (haddress : Address.isAddress s.serve.interface = true)
      (hport : clientPort? s = some port) (htaken : isFree port = false) :
      Outcome d s isFree build (.error (.reloadPort port))
  /-- no port is open for documents -/
  | ports (haddress : Address.isAddress s.serve.interface = true)
      (hreload : ∀ port, clientPort? s = some port → isFree port = true)
      (hclosed : ∀ n < attempts, isOpen s isFree (candidate s.serve.port n) = false) :
      Outcome d s isFree build
        (.error (.ports s.serve.port (candidate s.serve.port (attempts - 1))))
  /-- documents are served at the first port that is open for them -/
  | started {n : Nat} (haddress : Address.isAddress s.serve.interface = true)
      (hreload : ∀ port, clientPort? s = some port → isFree port = true) (hn : n < attempts)
      (hopen : isOpen s isFree (candidate s.serve.port n) = true)
      (hclosed : ∀ m < n, isOpen s isFree (candidate s.serve.port m) = false) :
      Outcome d s isFree build (.ok {
        build, gate := { state := .watching }, port := candidate s.serve.port n,
        reloadPort? := clientPort? s, watcher? := sourceWatcher? d s { state := .watching } })

theorem find?_candidates_eq_some {port p : Nat} {f : Nat → Bool} :
    (candidates port).find? f = some p ↔ ∃ n < attempts, candidate port n = p ∧ f p = true ∧
      ∀ m < n, f (candidate port m) = false := by
  rw [candidates, List.find?_map, Option.map_eq_some_iff]
  refine exists_congr fun n => ?_
  rw [List.find?_range_eq_some]
  constructor
  · rintro ⟨⟨hf, hn, hclosed⟩, rfl⟩
    exact ⟨List.mem_range.1 hn, rfl, hf, by simpa using hclosed⟩
  · rintro ⟨hn, rfl, hf, hclosed⟩
    exact ⟨⟨hf, List.mem_range.2 hn, by simpa using hclosed⟩, rfl⟩

/-- **How a preview starts.** The first build is made as soon as the interface is known for an address,
and the disk stays as it leaves it. -/
theorem start_outcome (d : Disk) (s : Settings) (isFree : Nat → Bool) (runtime : Runtime) :
    (start d s isFree runtime).1 = (if Address.isAddress s.serve.interface then
        (Site.build d s.build (clientPort? s) runtime).1 else d) ∧
      Outcome (start d s isFree runtime).1 s isFree
        (Site.build d s.build (clientPort? s) runtime).2 (start d s isFree runtime).2 := by
  rw [start]
  rcases haddress : Address.isAddress s.serve.interface with _ | _
  · exact ⟨rfl, .interface haddress⟩
  · rcases hbuild : Site.build d s.build (clientPort? s) runtime with ⟨d₁, build⟩
    have hgate : (({} : Gate).run [attemptOf build]).1 = { state := .watching } :=
      Gate.run_alone (by decide) rfl rfl
    simp only [if_true, hgate]
    rcases hreload : (clientPort? s).filter fun port => !isFree port with _ | port
    · have hfree : ∀ port, clientPort? s = some port → isFree port = true := by
        simpa [Option.filter_eq_none_iff] using hreload
      rcases hfind : (candidates s.serve.port).find? (isOpen s isFree) with _ | port
      · refine ⟨rfl, .ports haddress hfree fun n hn => ?_⟩
        have hmem : candidate s.serve.port n ∈ candidates s.serve.port :=
          List.mem_map_of_mem (List.mem_range.2 hn)
        simpa using List.find?_eq_none.1 hfind _ hmem
      · obtain ⟨n, hn, rfl, hopen, hclosed⟩ := find?_candidates_eq_some.1 hfind
        exact ⟨rfl, .started haddress hfree hn hopen hclosed⟩
    · obtain ⟨hport, htaken⟩ := Option.filter_eq_some_iff.1 hreload
      exact ⟨rfl, .reloadPort haddress hport (by simpa using htaken)⟩

/-- Whether a preview starts does not depend on its files. -/
theorem start_isOk (d d' : Disk) (s : Settings) (isFree : Nat → Bool) (runtime runtime' : Runtime) :
    (start d s isFree runtime).2.isOk = (start d' s isFree runtime').2.isOk := by
  rw [start, start]
  split
  · dsimp only
    rcases (clientPort? s).filter fun port => !isFree port with _ | port
    · rcases (candidates s.serve.port).find? (isOpen s isFree) with _ | port <;> rfl
    · rfl
  · rfl

/-! ## Building anew -/

namespace SourceWatcher

variable {w : SourceWatcher} {l : Location}

/-- Files change and the site is built anew, time after time. -/
def rebuilds (w : SourceWatcher) (d : Disk) : List ((Disk → Disk) × Runtime) → Disk × SourceWatcher
  | [] => (d, w)
  | (change, runtime) :: rest =>
    let (d, w, _) := w.rebuild (change d) runtime
    w.rebuilds d rest

/-- One build: behind it the gate is at rest again, and what the watcher knows is as before. -/
theorem rebuild_eq (hstate : w.gate.state ≠ .building) (hpending : w.gate.pending = false)
    (d : Disk) (runtime : Runtime) :
    w.rebuild d runtime = ((Site.build d w.settings w.clientPort? runtime).1,
      { w with gate := { state := .watching } },
      (Site.build d w.settings w.clientPort? runtime).2) := by
  rw [rebuild]
  exact Prod.ext rfl (Prod.ext
    (congrArg (fun gate => { w with gate }) (Gate.run_alone hstate hpending rfl)) rfl)

/-- A watcher that cleans nothing away, whose gate is at rest. -/
structure IsReady (w : SourceWatcher) : Prop where
  /-- nothing is cleaned away -/
  clean_eq : w.settings.clean = false
  /-- no build runs -/
  state_ne : w.gate.state ≠ .building
  /-- no build is asked for -/
  pending_eq : w.gate.pending = false

/-- Builds take no directory away, which is not taken away otherwise, and leave the watcher ready. -/
theorem IsReady.rebuilds (hw : w.IsReady) {steps : List ((Disk → Disk) × Runtime)}
    (hchange : ∀ step ∈ steps, ∀ d, d.tree.isDirectory l = true →
      (step.1 d).tree.isDirectory l = true) (h : d.tree.isDirectory l = true) :
    (w.rebuilds d steps).1.tree.isDirectory l = true ∧ (w.rebuilds d steps).2.IsReady := by
  induction steps generalizing d w with
  | nil => exact ⟨h, hw⟩
  | cons step rest ih =>
    obtain ⟨change, runtime⟩ := step
    have hkept := Site.isDirectory_build hw.clean_eq w.clientPort? runtime
      (hchange _ List.mem_cons_self d h)
    have hready : SourceWatcher.IsReady { w with gate := { state := .watching } } :=
      ⟨hw.clean_eq, nofun, rfl⟩
    rw [SourceWatcher.rebuilds, rebuild_eq hw.state_ne hw.pending_eq]
    exact ih hready (fun step hstep => hchange step (List.mem_cons_of_mem _ hstep)) hkept

end SourceWatcher

/-- **Behind the first build no directory is taken away by a build**, however often files change, in
which places they change too, and whether the builds succeed or not. -/
theorem started_keeps {started : Started} {w : SourceWatcher} {l : Location} {d₁ : Disk}
    {steps : List ((Disk → Disk) × Runtime)} (hstart : (start d s isFree runtime).2 = .ok started)
    (hw : started.watcher? = some w)
    (hchange : ∀ step ∈ steps, ∀ d, d.tree.isDirectory l = true →
      (step.1 d).tree.isDirectory l = true) (h : d₁.tree.isDirectory l = true) :
    (w.rebuilds d₁ steps).1.tree.isDirectory l = true ∧ (w.rebuilds d₁ steps).2.IsReady := by
  have houtcome := (start_outcome d s isFree runtime).2
  rw [hstart] at houtcome
  cases houtcome with
  | started =>
    obtain ⟨port, -, rfl⟩ := Option.map_eq_some_iff.1 hw
    have hready : SourceWatcher.IsReady
        { SourceWatcher.start (start d s isFree runtime).1 { s.build with clean := false } (some port)
          with gate := { state := .watching } } := ⟨rfl, nofun, rfl⟩
    exact hready.rebuilds hchange h

/-! ## Clients -/

namespace Clients

/-- What can happen to the clients. -/
inductive Action where
  /-- one more connects -/
  | connect
  /-- one goes away -/
  | close (index : Nat)
  /-- files have changed -/
  | broadcast (changed : List Path)

/-- The clients behind an action. -/
def act (c : Clients) : Action → Clients
  | .connect => c.connect
  | .close index => c.close index
  | .broadcast changed => (c.broadcast changed).1

/-- Who is there behind an action, in the order of connection. -/
def Action.leave (there : List Bool) : Action → List Bool
  | .connect => there ++ [true]
  | .close index => there.set index false
  | .broadcast _ => there

/-- The listeners of clients that have these subscribers, told from an index on. -/
def listeners (index : Nat) : List (Option Nat) → List (Subscriber (List Nat))
  | [] => []
  | none :: ids => listeners (index + 1) ids
  | some id :: ids => ⟨id, listener index⟩ :: listeners (index + 1) ids

/-- The clients that are there, told from an index on. -/
def indices (index : Nat) : List (Option Nat) → List Nat
  | [] => []
  | none :: ids => indices (index + 1) ids
  | some _ :: ids => index :: indices (index + 1) ids

/-- The hub has the listeners of those who are there, under numbers that it has given. -/
structure Follows (c : Clients) (there : List Bool) : Prop where
  /-- who has a subscriber is there -/
  there_eq : c.subscribers.map (·.isSome) = there
  /-- the subscribers are their listeners -/
  subscribers_eq : c.hub.subscribers = listeners 0 c.subscribers
  /-- no two have the same number -/
  nodup : c.subscribers.reduceOption.Nodup
  /-- the numbers have been given -/
  given : ∀ id ∈ c.subscribers.reduceOption, id < c.hub.next

variable {c : Clients} {there : List Bool}

theorem listeners_append (index : Nat) (ids more : List (Option Nat)) :
    listeners index (ids ++ more) = listeners index ids ++ listeners (index + ids.length) more := by
  induction ids generalizing index with
  | nil => rfl
  | cons id? ids ih =>
    have hindex : index + (ids.length + 1) = index + 1 + ids.length := by omega
    cases id? with
    | none => rw [List.cons_append, listeners, listeners, ih, List.length_cons, hindex]
    | some id =>
      rw [List.cons_append, listeners, listeners, ih, List.length_cons, hindex, List.cons_append]

theorem id_mem_of_mem_listeners {index : Nat} {ids : List (Option Nat)}
    {subscriber : Subscriber (List Nat)} (h : subscriber ∈ listeners index ids) :
    subscriber.id ∈ ids.reduceOption := by
  fun_induction listeners index ids with
  | case1 => cases h
  | case2 index ids ih => exact ih h
  | case3 index id ids ih =>
    rw [List.reduceOption_cons_of_some]
    rcases List.mem_cons.1 h with rfl | h
    · exact List.mem_cons_self
    · exact List.mem_cons_of_mem _ (ih h)

/-- A number is taken out where its client is. -/
theorem filter_listeners {ids : List (Option Nat)} (hnodup : ids.reduceOption.Nodup) {i id : Nat}
    (hid : ids[i]? = some (some id)) (index : Nat) :
    (listeners index ids).filter (·.id != id) = listeners index (ids.set i none) := by
  induction ids generalizing i index with
  | nil => cases hid
  | cons id? ids ih =>
    cases id? with
    | none =>
      rcases i with _ | i
      · cases hid
      · exact ih hnodup hid (index + 1)
    | some first =>
      rw [List.reduceOption_cons_of_some, List.nodup_cons] at hnodup
      rcases i with _ | i
      · obtain rfl : first = id := Option.some.inj (Option.some.inj hid)
        rw [listeners, List.set_cons_zero, listeners, List.filter_cons_of_neg (by simp)]
        refine List.filter_eq_self.2 fun subscriber hmem => ?_
        rw [bne_iff_ne]
        exact fun heq => hnodup.1 (heq ▸ id_mem_of_mem_listeners hmem)
      · have hne : first ≠ id := by
          rintro rfl
          exact hnodup.1 (List.reduceOption_mem_iff.2 (List.mem_of_getElem? hid))
        rw [listeners, List.set_cons_succ, listeners, List.filter_cons_of_pos (by simpa using hne),
          ih hnodup.2 hid]

theorem callAll_listeners (h : Hub (List Nat)) (changed : List Path) (sent : List Nat) (index : Nat)
    (ids : List (Option Nat)) :
    (h.callAll changed sent (listeners index ids)).1 = h ∧
      (h.callAll changed sent (listeners index ids)).2.1 = sent ++ indices index ids := by
  fun_induction listeners index ids generalizing sent with
  | case1 => exact ⟨rfl, (List.append_nil sent).symm⟩
  | case2 index ids ih => exact ih sent
  | case3 index id ids ih =>
    exact ⟨(ih _).1, (ih _).2.trans (List.append_assoc sent [index] _)⟩

theorem mem_indices {ids : List (Option Nat)} {index i : Nat} :
    i ∈ indices index ids ↔ ∃ n, index + n = i ∧ (ids.map (·.isSome))[n]? = some true := by
  fun_induction indices index ids with
  | case1 => simp
  | case2 index ids ih =>
    rw [ih]
    constructor
    · rintro ⟨n, rfl, hn⟩
      exact ⟨n + 1, by omega, hn⟩
    · rintro ⟨n | n, rfl, hn⟩
      · cases hn
      · exact ⟨n, by omega, hn⟩
  | case3 index id ids ih =>
    rw [List.mem_cons, ih]
    constructor
    · rintro (rfl | ⟨n, rfl, hn⟩)
      · exact ⟨0, rfl, rfl⟩
      · exact ⟨n + 1, by omega, hn⟩
    · rintro ⟨n | n, rfl, hn⟩
      · exact .inl rfl
      · exact .inr ⟨n, by omega, hn⟩

theorem length_listeners (index : Nat) (ids : List (Option Nat)) :
    (listeners index ids).length = (ids.map (·.isSome)).count true := by
  fun_induction listeners index ids with
  | case1 => rfl
  | case2 index ids ih => simpa using ih
  | case3 index id ids ih => simpa using ih

/-! ### Steps -/

theorem follows_nobody : ({} : Clients).Follows [] := ⟨rfl, rfl, List.nodup_nil, nofun⟩

theorem Follows.connect (h : c.Follows there) : c.connect.Follows (there ++ [true]) where
  there_eq := by
    rw [← h.there_eq]
    exact List.map_append
  subscribers_eq := by
    rw [Clients.connect, listeners_append, ← h.subscribers_eq, Nat.zero_add]
    rfl
  nodup := by
    change (c.subscribers ++ [some c.hub.next]).reduceOption.Nodup
    rw [List.reduceOption_append, List.nodup_append]
    refine ⟨h.nodup, by simp [List.reduceOption], fun id hid other hother => ?_⟩
    obtain rfl : other = c.hub.next := by simpa [List.reduceOption] using hother
    exact Nat.ne_of_lt (h.given id hid)
  given := by
    intro id hid
    change id ∈ (c.subscribers ++ [some c.hub.next]).reduceOption at hid
    change id < c.hub.next + 1
    rw [List.reduceOption_append, List.mem_append] at hid
    rcases hid with hid | hid
    · exact Nat.lt_succ_of_lt (h.given id hid)
    · obtain rfl : id = c.hub.next := by simpa [List.reduceOption] using hid
      exact Nat.lt_succ_self _

theorem reduceOption_set_sublist (ids : List (Option Nat)) (i : Nat) :
    (ids.set i none).reduceOption.Sublist ids.reduceOption := by
  induction ids generalizing i with
  | nil => exact .refl _
  | cons id? ids ih =>
    rcases i with _ | i
    · rw [List.set_cons_zero, List.reduceOption_cons_of_none]
      cases id? with
      | none => exact .refl _
      | some id => exact List.sublist_cons_self _ _
    · rw [List.set_cons_succ]
      cases id? with
      | none => exact ih i
      | some id => exact (ih i).cons_cons id

theorem Follows.close (h : c.Follows there) (index : Nat) :
    (c.close index).Follows (there.set index false) := by
  have hthere : there[index]? = c.subscribers[index]?.map (·.isSome) := by
    rw [← h.there_eq, List.getElem?_map]
  rw [Clients.close]
  rcases hid : c.subscribers[index]? with _ | _ | id
  · rw [hid] at hthere
    rwa [List.set_eq_of_length_le (List.getElem?_eq_none_iff.1 hthere)]
  · -- it has gone away before
    rw [hid] at hthere
    obtain ⟨hlt, hfalse⟩ : ∃ hlt : index < there.length, there[index] = false :=
      List.getElem?_eq_some_iff.1 hthere
    have hsame : there.set index false = there := by
      rw [← hfalse, List.set_getElem_self]
    rwa [hsame]
  · have hsub := reduceOption_set_sublist c.subscribers index
    exact {
      there_eq := by
        rw [← h.there_eq, List.map_set]
        rfl
      subscribers_eq := by
        rw [← filter_listeners h.nodup hid 0, ← h.subscribers_eq]
        rfl
      nodup := hsub.nodup h.nodup
      given := fun id hid => h.given id (hsub.subset hid) }

/-- A broadcast leaves the clients as they are, and each of those who are there gets a message. -/
theorem Follows.broadcast (h : c.Follows there) (changed : List Path) :
    c.broadcast changed =
      (c, there.count true, there.map fun present => if present then some reloadMessage else none) := by
  obtain ⟨hhub, hsent⟩ := callAll_listeners c.hub changed [] 0 c.subscribers
  rw [← h.subscribers_eq] at hhub hsent
  have hsize : c.hub.subscribers.length = there.count true := by
    rw [h.subscribers_eq, length_listeners, h.there_eq]
  have hworld : (c.hub.broadcast changed []).world = indices 0 c.subscribers := hsent
  refine Prod.ext ?_ (Prod.ext hsize (List.ext_getElem? fun i => ?_))
  · exact congrArg (fun hub => { c with hub }) hhub
  · have hcontains : (indices 0 c.subscribers).contains i = true ↔ there[i]? = some true := by
      rw [List.contains_iff_mem, mem_indices, h.there_eq]
      simp
    have hlength : there.length = c.subscribers.length := by rw [← h.there_eq, List.length_map]
    rw [Clients.broadcast, hworld, List.getElem?_map, List.getElem?_map, ← hlength]
    rcases hthere : there[i]? with _ | present
    · rw [List.getElem?_eq_none_iff] at hthere
      rw [List.getElem?_eq_none (by rwa [List.length_range])]
      rfl
    · obtain ⟨hlt, -⟩ := List.getElem?_eq_some_iff.1 hthere
      rw [hthere, Option.some_inj] at hcontains
      simp only [List.getElem?_range hlt, Option.map_some, hcontains]

theorem Follows.act (h : c.Follows there) (action : Action) :
    (c.act action).Follows (action.leave there) := by
  cases action with
  | connect => exact h.connect
  | close index => exact h.close index
  | broadcast changed =>
    rw [Clients.act, h.broadcast]
    exact h

/-- **A broadcast is for those who are there**, whatever has happened before: each of them is sent a
message, nobody else is, and they are counted. This leaves the clients as they are. -/
theorem broadcast_reaches (actions : List Action) (changed : List Path) :
    let c := actions.foldl act {}
    let there := actions.foldl Action.leave []
    c.broadcast changed = (c, there.count true,
      there.map fun present => if present then some reloadMessage else none) := by
  have hfollows : ∀ (actions : List Action) (c : Clients) (there : List Bool), c.Follows there →
      (actions.foldl act c).Follows (actions.foldl Action.leave there) := by
    intro actions
    induction actions with
    | nil => exact fun _ _ h => h
    | cons action actions ih => exact fun _ _ h => ih _ _ (h.act action)
  exact (hfollows actions {} [] follows_nobody).broadcast changed

end Clients

end Preview

end StaticSite
