import StaticSite.Number.Basic
import StaticSite.Preview.Hub

/-!
# Reload clients

Every browser that shows a page of the site is a client, and every connected client is a subscriber
of the reload hub: when it is called, it is sent a message that makes it load its page anew. A client
that goes away is unsubscribed, and who does not speak the protocol of clients is never subscribed.
-/

namespace StaticSite.Preview

/-- The message that makes a client load its page anew. -/
def reloadMessage : String := "reload"

/-- The clients that have connected, and the hub to which the present ones are subscribed. The world of
the hub is the clients to which a message was sent, told by the order of connection. -/
structure Clients where
  /-- the hub -/
  hub : Hub (List Nat) := {}
  /-- the subscriber of each client in the order of connection; `none` if it has gone away -/
  subscribers : List (Option Nat) := []
  deriving Inhabited

namespace Clients

/-- A client is sent a message when its subscriber is called. -/
def listener (index : Nat) : Callback (List Nat) := fun _ sent => .done (sent ++ [index])

/-- A client connects. -/
def connect (c : Clients) : Clients :=
  let (hub, id) := c.hub.subscribe (listener c.subscribers.length)
  { hub, subscribers := c.subscribers ++ [some id] }

/-- What is logged when a client has connected. -/
def connectMessage (c : Clients) : String :=
  "client connected (" ++ String.ofList (Number.intText c.hub.size) ++ " open)"

/-- A client goes away. -/
def close (c : Clients) (index : Nat) : Clients :=
  match c.subscribers[index]? with
  | some (some id) =>
    { hub := (c.hub.unsubscribe id).1, subscribers := c.subscribers.set index none }
  | _ => c

/-- Files have changed: how many clients are called, and what each client is sent. -/
def broadcast (c : Clients) (changed : List Path) : Clients × Nat × List (Option String) :=
  let b := c.hub.broadcast changed []
  let received := (List.range c.subscribers.length).map fun index =>
    if b.world.contains index then some reloadMessage else none
  ({ c with hub := b.hub }, b.number, received)

end Clients

end StaticSite.Preview
