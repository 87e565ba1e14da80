import StaticSite.Files.Path

/-!
# The reload hub

Whoever wants to hear of changed files subscribes to the hub and gets a number that nobody had
before. A broadcast calls everybody who was subscribed when it began, in the order in which they
subscribed, and each of them may subscribe others or unsubscribe anybody while it is called.

What a subscriber does when it is called is a `Reaction`, a tree of steps on the hub, each of which
can depend on how the hub answered those before it. What else there is, and what subscribers know and
remember, is the *world*; it can make them act differently at each call.
-/

namespace StaticSite

/-- What a subscriber does to the hub when it is called. A broadcast is not among it, although the hub
would take one: it would call whoever began it as well, and so on, so that carrying out such a
reaction need not come to an end. -/
inductive Reaction (W : Type) where
  /-- nothing more, and the world is left like this -/
  | done (world : W)
  /-- subscribes somebody, and goes on with their number -/
  | subscribe (callback : List Path → W → Reaction W) (next : Nat → Reaction W)
  /-- unsubscribes a number, and goes on with whether it was subscribed -/
  | unsubscribe (id : Nat) (next : Bool → Reaction W)
  /-- asks how many are subscribed -/
  | count (next : Nat → Reaction W)

/-- How a subscriber reacts to changed files, in the world as it is then. -/
abbrev Callback (W : Type) := List Path → W → Reaction W

/-- A subscriber. -/
structure Subscriber (W : Type) where
  /-- its number -/
  id : Nat
  /-- what it does when it is called -/
  callback : Callback W

/-- The subscribers in the order in which they came, and the number for the next one. -/
structure Hub (W : Type) where
  /-- the number for the next subscriber -/
  next : Nat := 0
  /-- the subscribers -/
  subscribers : List (Subscriber W) := []

namespace Hub

variable {W : Type}

instance : Inhabited (Hub W) := ⟨{}⟩

/-- How many are subscribed. -/
def size (h : Hub W) : Nat := h.subscribers.length

/-- Somebody subscribes and gets a number. -/
def subscribe (h : Hub W) (callback : Callback W) : Hub W × Nat :=
  (⟨h.next + 1, h.subscribers ++ [⟨h.next, callback⟩]⟩, h.next)

/-- A number is unsubscribed. The answer tells whether it was subscribed. -/
def unsubscribe (h : Hub W) (id : Nat) : Hub W × Bool :=
  let left := h.subscribers.filter (·.id != id)
  ({ h with subscribers := left }, left.length != h.subscribers.length)

/-- Something that was asked of a hub, with its answer. -/
inductive Event (W : Type) where
  /-- somebody was subscribed under a number -/
  | subscribed (subscriber : Subscriber W)
  /-- a number was unsubscribed, and found or not -/
  | unsubscribed (id : Nat) (found : Bool)
  /-- so many were subscribed -/
  | counted (size : Nat)

/-- Carries out a reaction: the hub and the world behind it, and what it asked. -/
def carryOut (h : Hub W) : Reaction W → Hub W × W × List (Event W)
  | .done world => (h, world, [])
  | .subscribe callback next =>
    let (h, id) := h.subscribe callback
    let (h, world, events) := h.carryOut (next id)
    (h, world, .subscribed ⟨id, callback⟩ :: events)
  | .unsubscribe id next =>
    let (h, found) := h.unsubscribe id
    let (h, world, events) := h.carryOut (next found)
    (h, world, .unsubscribed id found :: events)
  | .count next =>
    let (h', world, events) := h.carryOut (next h.size)
    (h', world, .counted h.size :: events)

/-- A call of a subscriber: who was called, and what it asked. -/
structure Call (W : Type) where
  /-- who was called -/
  subscriber : Subscriber W
  /-- what it asked, with the answers -/
  events : List (Event W)

/-- Calls subscribers in order, each in the world that the one before has left. -/
def callAll (h : Hub W) (changed : List Path) (world : W) :
    List (Subscriber W) → Hub W × W × List (Call W)
  | [] => (h, world, [])
  | s :: rest =>
    let (h, world, events) := h.carryOut (s.callback changed world)
    let (h, world, calls) := h.callAll changed world rest
    (h, world, ⟨s, events⟩ :: calls)

/-- What a broadcast leads to. -/
structure Broadcast (W : Type) where
  /-- the hub behind it -/
  hub : Hub W
  /-- the world behind it -/
  world : W
  /-- the calls that were made -/
  calls : List (Call W)
  /-- how many the answer says were called -/
  number : Nat

/-- Calls everybody who is subscribed now. -/
def broadcast (h : Hub W) (changed : List Path) (world : W) : Broadcast W :=
  let (hub, behind, calls) := h.callAll changed world h.subscribers
  ⟨hub, behind, calls, h.subscribers.length⟩

end Hub

end StaticSite
