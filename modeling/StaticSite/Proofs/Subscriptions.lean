import StaticSite.Preview.Hub

/-!
# Who is subscribed

All that a hub was asked, from outside or by subscribers in the middle of a broadcast, is one list of
events. It tells who is `present`, which is everybody who was subscribed and not unsubscribed since,
in the order in which they came, and this is what the hub goes by: its answers fit what has happened
before them, and a broadcast calls whoever is present when it begins (`serveAll_fits`).

What is asked is what the requests and the subscribers who are called ask (`Served`): each of these
reacts in the world and to the hub that the one before it has left (`InTurn`), and goes on as it is
answered (`Asks`). So a history is a run of single steps (`Served.run`). Each step keeps the hub in
agreement with the events so far (`Agrees.step`), and so does every run.
-/

namespace StaticSite.Hub

variable {W : Type}

/-! ## Histories -/

/-- What is asked of a hub from outside. -/
inductive Request (W : Type) where
  /-- to subscribe somebody -/
  | subscribe (callback : Callback W)
  /-- to unsubscribe a number -/
  | unsubscribe (id : Nat)
  /-- how many are subscribed -/
  | count
  /-- to tell of changed files, in the world as it is then -/
  | broadcast (changed : List Path) (world : W)

/-- The hub behind a request, and all that it was asked, by subscribers too. -/
def serve (h : Hub W) : Request W → Hub W × List (Event W)
  | .subscribe callback =>
    let (h, id) := h.subscribe callback
    (h, [.subscribed ⟨id, callback⟩])
  | .unsubscribe id =>
    let (h, found) := h.unsubscribe id
    (h, [.unsubscribed id found])
  | .count => (h, [.counted h.size])
  | .broadcast changed world =>
    let b := h.broadcast changed world
    (b.hub, b.calls.flatMap (·.events))

/-- Requests one after the other. -/
def serveAll (h : Hub W) : List (Request W) → Hub W × List (Event W)
  | [] => (h, [])
  | request :: requests =>
    let (h, events) := h.serve request
    let (h, more) := h.serveAll requests
    (h, events ++ more)

/-- Everybody who was subscribed, in order. -/
def newcomers (events : List (Event W)) : List (Subscriber W) :=
  events.filterMap fun
    | .subscribed s => some s
    | _ => none

/-- Whether a number is unsubscribed. -/
def Event.removes (id : Nat) : Event W → Bool
  | .unsubscribed other _ => other == id
  | _ => false

/-- Who was subscribed and not unsubscribed since, in the order in which they came. -/
def present : List (Event W) → List (Subscriber W)
  | [] => []
  | .subscribed s :: events =>
    if events.any (·.removes s.id) then present events else s :: present events
  | _ :: events => present events

/-- An answer fits what has happened before it: a new number is how many have been given, so that it
was never given before; a number is found if somebody present has it; and those present are counted. -/
def Event.Fits (before : List (Event W)) : Event W → Prop
  | .subscribed s => s.id = (newcomers before).length ∧ ∀ t ∈ newcomers before, t.id ≠ s.id
  | .unsubscribed id found => found = true ↔ ∃ s ∈ present before, s.id = id
  | .counted size => size = (present before).length

/-! ## One more event -/

variable {events : List (Event W)}

theorem newcomers_concat (events : List (Event W)) (e : Event W) :
    newcomers (events ++ [e]) = newcomers events ++ newcomers [e] :=
  List.filterMap_append

/-- Whoever has a number that is unsubscribed goes, the others stay in their order, and whoever is
subscribed comes last. -/
theorem present_concat (events : List (Event W)) (e : Event W) :
    present (events ++ [e]) =
      (present events).filter (fun s => !e.removes s.id) ++ present [e] := by
  induction events with
  | nil => simp [present]
  | cons first events ih =>
    cases first with
    | subscribed t =>
      have hany : (events ++ [e]).any (·.removes t.id) =
          (events.any (·.removes t.id) || e.removes t.id) := by simp
      rw [List.cons_append, present, present, hany, ih]
      by_cases hgone : events.any (·.removes t.id) = true
      · rw [if_pos hgone, if_pos (by rw [hgone, Bool.true_or])]
      · rw [if_neg hgone]
        by_cases hremoved : e.removes t.id = true
        · simp [hremoved]
        · simp [hgone, hremoved]
    | unsubscribed id found => exact ih
    | counted size => exact ih

theorem filter_removes_of_not {e : Event W} (he : ∀ id found, e ≠ .unsubscribed id found)
    (subscribers : List (Subscriber W)) :
    subscribers.filter (fun s => !e.removes s.id) = subscribers := by
  refine List.filter_eq_self.2 fun s _ => ?_
  cases e with
  | subscribed t => rfl
  | unsubscribed id found => exact absurd rfl (he id found)
  | counted size => rfl

theorem present_sublist_newcomers (events : List (Event W)) :
    (present events).Sublist (newcomers events) := by
  induction events with
  | nil => exact .slnil
  | cons e events ih =>
    cases e with
    | subscribed s =>
      have hnew : newcomers (.subscribed s :: events) = s :: newcomers events := rfl
      rw [present, hnew]
      split
      · exact ih.cons s
      · exact ih.cons_cons s
    | unsubscribed id found => exact ih
    | counted size => exact ih

/-! ## Steps -/

/-- One thing that a hub is asked. -/
inductive Step : Hub W → Event W → Hub W → Prop where
  /-- somebody is subscribed -/
  | subscribe {h : Hub W} (callback : Callback W) :
      Step h (.subscribed ⟨(h.subscribe callback).2, callback⟩) (h.subscribe callback).1
  /-- a number is unsubscribed -/
  | unsubscribe {h : Hub W} (id : Nat) :
      Step h (.unsubscribed id (h.unsubscribe id).2) (h.unsubscribe id).1
  /-- the subscribers are counted -/
  | count {h : Hub W} : Step h (.counted h.size) h

/-- Steps one after the other. -/
inductive Run : Hub W → List (Event W) → Hub W → Prop where
  /-- nothing is asked -/
  | nil {h : Hub W} : Run h [] h
  /-- one more step in front -/
  | cons {h h₁ h₂ : Hub W} {e : Event W} {events : List (Event W)} (hstep : Step h e h₁)
      (hrun : Run h₁ events h₂) : Run h (e :: events) h₂

variable {h h₁ h₂ : Hub W} {e : Event W} {before after : List (Event W)}

theorem Run.single (hstep : Step h e h₁) : Run h [e] h₁ := .cons hstep .nil

theorem Run.append (hrun : Run h before h₁) (hrun' : Run h₁ after h₂) :
    Run h (before ++ after) h₂ := by
  induction hrun with
  | nil => exact hrun'
  | cons hstep _ ih => exact .cons hstep (ih hrun')

theorem Run.split (hrun : Run h (before ++ after) h₂) :
    ∃ h₁, Run h before h₁ ∧ Run h₁ after h₂ := by
  induction before generalizing h with
  | nil => exact ⟨h, .nil, hrun⟩
  | cons e before ih =>
    cases hrun with
    | cons hstep hrun =>
      obtain ⟨h₁, hbefore, hafter⟩ := ih hrun
      exact ⟨h₁, .cons hstep hbefore, hafter⟩

/-! ## Who asks -/

/-- A reaction asks for these events, as it goes on when it is answered like that, and leaves the
world. -/
inductive Asks : Reaction W → List (Event W) → W → Prop where
  /-- nothing more is asked -/
  | done {world : W} : Asks (.done world) [] world
  /-- somebody is subscribed, and the rest may depend on the number -/
  | subscribe {callback : Callback W} {next : Nat → Reaction W} {id : Nat} {events : List (Event W)}
      {world : W} (hrest : Asks (next id) events world) :
      Asks (.subscribe callback next) (.subscribed ⟨id, callback⟩ :: events) world
  /-- a number is unsubscribed, and the rest may depend on whether it was found -/
  | unsubscribe {id : Nat} {next : Bool → Reaction W} {found : Bool} {events : List (Event W)}
      {world : W} (hrest : Asks (next found) events world) :
      Asks (.unsubscribe id next) (.unsubscribed id found :: events) world
  /-- the subscribers are counted, and the rest may depend on how many they are -/
  | count {next : Nat → Reaction W} {size : Nat} {events : List (Event W)} {world : W}
      (hrest : Asks (next size) events world) : Asks (.count next) (.counted size :: events) world

/-- Subscribers are called in turn. Each reacts in the world that the one before it has left, and
asks the hub that the one before it has left. -/
inductive InTurn (changed : List Path) : Hub W → W → List (Call W) → Hub W → W → Prop where
  /-- nobody is left to call -/
  | nil {h : Hub W} {world : W} : InTurn changed h world [] h world
  /-- somebody is called, and then the rest -/
  | cons {h h₁ h₂ : Hub W} {world world₁ world₂ : W} {s : Subscriber W} {events : List (Event W)}
      {calls : List (Call W)} (hasks : Asks (s.callback changed world) events world₁)
      (hrun : Run h events h₁) (hrest : InTurn changed h₁ world₁ calls h₂ world₂) :
      InTurn changed h world (⟨s, events⟩ :: calls) h₂ world₂

/-- What a request asks of a hub. -/
inductive Asked : Hub W → Request W → List (Event W) → Hub W → Prop where
  /-- somebody is subscribed -/
  | subscribe {h h₁ : Hub W} {s : Subscriber W} (hstep : Step h (.subscribed s) h₁) :
      Asked h (.subscribe s.callback) [.subscribed s] h₁
  /-- a number is unsubscribed -/
  | unsubscribe {h h₁ : Hub W} {id : Nat} {found : Bool}
      (hstep : Step h (.unsubscribed id found) h₁) :
      Asked h (.unsubscribe id) [.unsubscribed id found] h₁
  /-- the subscribers are counted -/
  | count {h h₁ : Hub W} {size : Nat} (hstep : Step h (.counted size) h₁) :
      Asked h .count [.counted size] h₁
  /-- the subscribers are called in turn -/
  | broadcast {h h₁ : Hub W} {changed : List Path} {world world₁ : W} {calls : List (Call W)}
      (hcalled : calls.map (·.subscriber) = h.subscribers)
      (hturn : InTurn changed h world calls h₁ world₁) :
      Asked h (.broadcast changed world) (calls.flatMap (·.events)) h₁

/-- What requests ask of a hub, one after the other. -/
inductive Served : Hub W → List (Request W) → List (Event W) → Hub W → Prop where
  /-- nothing is requested -/
  | nil {h : Hub W} : Served h [] [] h
  /-- one more request in front -/
  | cons {h h₁ h₂ : Hub W} {request : Request W} {requests : List (Request W)}
      {events more : List (Event W)} (hasked : Asked h request events h₁)
      (hrest : Served h₁ requests more h₂) : Served h (request :: requests) (events ++ more) h₂

variable {changed : List Path} {world world₁ : W} {calls : List (Call W)} {request : Request W}
  {requests : List (Request W)}

theorem InTurn.run (hturn : InTurn changed h world calls h₁ world₁) :
    Run h (calls.flatMap (·.events)) h₁ := by
  induction hturn with
  | nil => exact .nil
  | cons _ hrun _ ih => exact hrun.append ih

theorem Asked.run (hasked : Asked h request events h₁) : Run h events h₁ := by
  cases hasked with
  | subscribe hstep => exact .single hstep
  | unsubscribe hstep => exact .single hstep
  | count hstep => exact .single hstep
  | broadcast _ hturn => exact hturn.run

/-- **A history is a run of single steps**, those of subscribers in the middle of a broadcast among
them. -/
theorem Served.run (hserved : Served h requests events h₁) : Run h events h₁ := by
  induction hserved with
  | nil => exact .nil
  | cons hasked _ ih => exact hasked.run.append ih

theorem carryOut_asks (h : Hub W) (r : Reaction W) :
    Asks r (h.carryOut r).2.2 (h.carryOut r).2.1 := by
  induction r generalizing h with
  | done world => exact .done
  | subscribe callback next _ ih => exact .subscribe (ih _ _)
  | unsubscribe id next ih => exact .unsubscribe (ih _ _)
  | count next ih => exact .count (ih _ _)

theorem carryOut_run (h : Hub W) (r : Reaction W) : Run h (h.carryOut r).2.2 (h.carryOut r).1 := by
  induction r generalizing h with
  | done world => exact .nil
  | subscribe callback next _ ih => exact .cons (.subscribe callback) (ih _ _)
  | unsubscribe id next ih => exact .cons (.unsubscribe id) (ih _ _)
  | count next ih => exact .cons .count (ih _ _)

theorem callAll_subscribers (changed : List Path) (subscribers : List (Subscriber W)) (h : Hub W)
    (world : W) :
    (h.callAll changed world subscribers).2.2.map (·.subscriber) = subscribers := by
  induction subscribers generalizing h world with
  | nil => rfl
  | cons s rest ih =>
    rw [callAll, List.map_cons, ih]

theorem callAll_inTurn (changed : List Path) (subscribers : List (Subscriber W)) (h : Hub W)
    (world : W) :
    InTurn changed h world (h.callAll changed world subscribers).2.2
      (h.callAll changed world subscribers).1 (h.callAll changed world subscribers).2.1 := by
  induction subscribers generalizing h world with
  | nil => exact .nil
  | cons s rest ih =>
    exact .cons (carryOut_asks h _) (carryOut_run h _) (ih _ _)

/-- **A broadcast calls the subscribers in turn.** -/
theorem broadcast_inTurn (h : Hub W) (changed : List Path) (world : W) :
    InTurn changed h world (h.broadcast changed world).calls (h.broadcast changed world).hub
      (h.broadcast changed world).world :=
  callAll_inTurn changed h.subscribers h world

theorem serve_asked (h : Hub W) (request : Request W) :
    Asked h request (h.serve request).2 (h.serve request).1 := by
  cases request with
  | subscribe callback => exact .subscribe (.subscribe callback)
  | unsubscribe id => exact .unsubscribe (.unsubscribe id)
  | count => exact .count .count
  | broadcast changed world =>
    exact .broadcast (callAll_subscribers changed h.subscribers h world)
      (broadcast_inTurn h changed world)

theorem serveAll_served (h : Hub W) (requests : List (Request W)) :
    Served h requests (h.serveAll requests).2 (h.serveAll requests).1 := by
  induction requests generalizing h with
  | nil => exact .nil
  | cons request requests ih => exact .cons (serve_asked h request) (ih _)

/-! ## Agreement -/

/-- A hub that agrees with what has happened: its subscribers are those who are present, and the
numbers were given in order. -/
structure Agrees (events : List (Event W)) (h : Hub W) : Prop where
  /-- the subscribers are those who are present -/
  subscribers_eq : h.subscribers = present events
  /-- the numbers that were given are those before the next one -/
  numbers : (newcomers events).map (·.id) = List.range h.next

theorem agrees_fresh : Agrees [] ({} : Hub W) := ⟨rfl, rfl⟩

theorem Agrees.next_eq (ha : Agrees events h) : h.next = (newcomers events).length := by
  have hlength := congrArg List.length ha.numbers
  rwa [List.length_map, List.length_range, eq_comm] at hlength

theorem Agrees.nodup (ha : Agrees events h) : ((present events).map (·.id)).Nodup := by
  have hsub := (present_sublist_newcomers events).map (·.id)
  rw [ha.numbers] at hsub
  exact hsub.nodup List.nodup_range

/-- What a step does to what agrees with the events so far. -/
theorem Agrees.step (ha : Agrees before h) (hstep : Step h e h₁) : Agrees (before ++ [e]) h₁ := by
  cases hstep with
  | subscribe callback =>
    refine ⟨?_, ?_⟩
    · rw [present_concat, filter_removes_of_not (by simp), ← ha.subscribers_eq]
      rfl
    · rw [newcomers_concat, List.map_append, ha.numbers]
      exact List.range_succ.symm
  | unsubscribe id =>
    refine ⟨?_, ?_⟩
    · have hstays : (fun s : Subscriber W => s.id != id) = fun s => !id == s.id :=
        funext fun s => congrArg not Bool.beq_comm
      rw [present_concat, ← ha.subscribers_eq, unsubscribe, hstays]
      exact (List.append_nil _).symm
    · rw [newcomers_concat, List.map_append, ha.numbers]
      exact List.append_nil _
  | count =>
    refine ⟨?_, ?_⟩
    · rw [present_concat, filter_removes_of_not (by simp), ← ha.subscribers_eq]
      exact (List.append_nil _).symm
    · rw [newcomers_concat, List.map_append, ha.numbers]
      exact List.append_nil _

theorem Run.agrees (hrun : Run h events h₁) (ha : Agrees before h) :
    Agrees (before ++ events) h₁ := by
  induction hrun generalizing before with
  | nil => rwa [List.append_nil]
  | cons hstep _ ih =>
    rw [List.append_cons]
    exact ih (ha.step hstep)

/-- Something is filtered out of a list exactly if somebody in there has the number. -/
theorem unsubscribe_found (h : Hub W) (id : Nat) :
    (h.unsubscribe id).2 = true ↔ ∃ s ∈ h.subscribers, s.id = id := by
  have hall : (h.subscribers.filter (·.id != id)).length = h.subscribers.length ↔
      ∀ s ∈ h.subscribers, (s.id != id) = true := List.length_filter_eq_length_iff
  rw [unsubscribe, bne_iff_ne, Ne, hall]
  simp

theorem Agrees.fits (ha : Agrees before h) (hstep : Step h e h₁) : e.Fits before := by
  cases hstep with
  | subscribe callback =>
    refine ⟨ha.next_eq, fun t ht heq => ?_⟩
    have hgiven : t.id ∈ List.range h.next := ha.numbers ▸ List.mem_map_of_mem ht
    rw [List.mem_range, heq] at hgiven
    exact Nat.lt_irrefl _ hgiven
  | unsubscribe id =>
    rw [Event.Fits, unsubscribe_found, ha.subscribers_eq]
  | count =>
    rw [Event.Fits, size, ha.subscribers_eq]

/-! ## Histories of a hub -/

/-- **What a hub does**, whatever it has been asked and whatever its subscribers do when they are
called. It is asked what the requests ask and what subscribers ask who are called, each in turn.
Behind any history its subscribers are those who are present. Each of its answers fits what has
happened before it, in earlier broadcasts or the same one: no number is given twice, a number is
found exactly if somebody present has it, and whoever asks is told how many are present. And a
broadcast calls those who are present when it begins, each of them once and in the order in which
they came, whoever is subscribed or unsubscribed meanwhile, carries out what each of them does before
it calls the next one, and says how many they are. -/
theorem serveAll_fits (requests : List (Request W)) :
    Served {} requests (({} : Hub W).serveAll requests).2 (({} : Hub W).serveAll requests).1 ∧
    (({} : Hub W).serveAll requests).1.subscribers = present (({} : Hub W).serveAll requests).2 ∧
    (∀ before e after, (({} : Hub W).serveAll requests).2 = before ++ e :: after →
      e.Fits before) ∧
    ∀ changed world,
      let b := (({} : Hub W).serveAll requests).1.broadcast changed world
      let present := present (({} : Hub W).serveAll requests).2
      b.calls.map (·.subscriber) = present ∧ (present.map (·.id)).Nodup ∧
        InTurn changed (({} : Hub W).serveAll requests).1 world b.calls b.hub b.world ∧
        b.number = present.length := by
  have hserved := serveAll_served ({} : Hub W) requests
  have hrun := hserved.run
  have hagrees : Agrees (({} : Hub W).serveAll requests).2 (({} : Hub W).serveAll requests).1 :=
    hrun.agrees agrees_fresh
  refine ⟨hserved, hagrees.subscribers_eq, fun before e after hsplit => ?_, fun changed world => ?_⟩
  · rw [hsplit] at hrun
    obtain ⟨h₁, hbefore, hrest⟩ := hrun.split
    cases hrest with
    | cons hstep _ => exact (hbefore.agrees agrees_fresh).fits hstep
  · refine ⟨?_, hagrees.nodup, broadcast_inTurn _ changed world, ?_⟩
    · rw [← hagrees.subscribers_eq]
      exact callAll_subscribers changed _ _ world
    · rw [← hagrees.subscribers_eq]
      rfl

/-- Subscribers write down their names when they are called, so that the world is who was called. The
first one also unsubscribes the second, subscribes a third and asks how many there are. The second is
called all the same, the third is not, and behind the broadcast the first and the third are left. -/
theorem serveAll_fits_reentrant :
    let calm (name : Nat) : Callback (List Nat) := fun _ called => .done (called ++ [name])
    let busy : Callback (List Nat) := fun _ called =>
      .unsubscribe 1 fun _ => .subscribe (calm 2) fun _ => .count fun _ => .done (called ++ [0])
    let hub := (({} : Hub (List Nat)).serveAll [.subscribe busy, .subscribe (calm 1)]).1
    let b := hub.broadcast [] []
    InTurn [] hub [] b.calls b.hub b.world ∧ b.calls.map (·.subscriber.id) = [0, 1] ∧
      b.world = [0, 1] ∧ b.hub.subscribers.map (·.id) = [0, 2] :=
  ⟨((serveAll_fits _).2.2.2 [] []).2.2.1, by decide, by decide, by decide⟩

end StaticSite.Hub
