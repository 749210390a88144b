import Handover.Config.Basic
import Handover.Context
import Handover.Message

/-!
# The message bus

A message goes to the queue of every subscription on its subject; queues are bounded, and what does not fit
is dropped. A reply goes to the inbox of the request it answers. The receive loop of a subscription takes
messages off its queue; it ends some time after the subscription was given up, and a subscription whose
loop has ended is forgotten when the next message finds it.
-/

namespace Handover

structure Subscription where
  id : Nat
  subject : String
  queue : List Message := []
  active : Bool := true
  listening : Bool := true
  deriving BEq, Repr

structure BusStats where
  published : Nat := 0
  delivered : Nat := 0
  dropped : Nat := 0
  deriving DecidableEq, Repr

structure Bus where
  subjectPrefix : String := "agents."
  capacity : Nat := 256
  /-- Every subscription made, in the order of the ids. -/
  subscriptions : List Subscription := []
  /-- Who is listed on a subject, in the order of subscribing. -/
  subjects : Table (List Nat) := []
  /-- The requests that wait, with the reply that has come. -/
  inboxes : Table (Option Message) := []
  stats : BusStats := {}
  deriving Repr

inductive Offer where
  | accepted
  | full
  | closed
  deriving DecidableEq, Repr

namespace Subscription

def offer (s : Subscription) (capacity : Nat) : Offer :=
  if !s.listening then .closed
  else if capacity ≤ s.queue.length then .full
  else .accepted

def push (s : Subscription) (m : Message) : Subscription := { s with queue := s.queue ++ [m] }

end Subscription

namespace Bus

/-- A queue holds one message at least. -/
def ofConfig (c : BusConfig) : Bus :=
  { subjectPrefix := c.subjectPrefix, capacity := max 1 c.channelCapacity }

def inboxPrefix : String := "_INBOX."

def isInbox (subject : String) : Bool := inboxPrefix.toList.isPrefixOf subject.toList

def subjectFor (b : Bus) (agent topic : String) : String := Message.subject b.subjectPrefix agent topic

def subscription? (b : Bus) (id : Nat) : Option Subscription := b.subscriptions.find? (·.id = id)

def update (b : Bus) (id : Nat) (f : Subscription → Subscription) : Bus :=
  { b with subscriptions := b.subscriptions.map fun s => if s.id = id then f s else s }

def listed (b : Bus) (subject : String) : List Nat := (b.subjects.get? subject).getD []

def isListening (b : Bus) (id : Nat) : Bool :=
  match b.subscription? id with
  | some s => s.listening
  | none => false

def subscriberCount (b : Bus) (subject : String) : Nat :=
  ((b.listed subject).filter b.isListening).length

/-! ## Delivery -/

def offerTo (b : Bus) (id : Nat) : Offer :=
  match b.subscription? id with
  | some s => s.offer b.capacity
  | none => .closed

def handTo (b : Bus) (m : Message) (id : Nat) : Bus :=
  match b.offerTo id with
  | .accepted => b.update id (·.push m)
  | .full => { b with stats := { b.stats with dropped := b.stats.dropped + 1 } }
  | .closed => b

/-- Takes subscriptions off the list of a subject, and the subject away if nobody is left on it. -/
def prune (b : Bus) (subject : String) (ids : List Nat) : Bus :=
  match b.subjects.get? subject with
  | none => b
  | some listed =>
    match listed.filter fun id => !ids.contains id with
    | [] => { b with subjects := b.subjects.erase subject }
    | kept => { b with subjects := b.subjects.insert subject kept }

def countDelivered (b : Bus) (n : Nat) : Bus :=
  { b with stats := { b.stats with delivered := b.stats.delivered + n } }

/-- Offers a message to all who are listed on a subject, and says how many took it. -/
def handToAll (b : Bus) (subject : String) (m : Message) : Nat × Bus :=
  let ids := b.listed subject
  let accepted := (ids.filter fun id => b.offerTo id == .accepted).length
  let closed := ids.filter fun id => b.offerTo id == .closed
  let b := ids.foldl (fun b id => b.handTo m id) b
  let b := if closed.isEmpty then b else b.prune subject closed
  (accepted, b.countDelivered accepted)

def handToInbox (b : Bus) (inbox : String) (m : Message) : Nat × Bus :=
  match b.inboxes.get? inbox with
  | some none =>
    (1, { b with inboxes := b.inboxes.insert inbox (some m) }.countDelivered 1)
  | some (some _) | none =>
    (0, { b with stats := { b.stats with dropped := b.stats.dropped + 1 } })

def deliver (b : Bus) (subject : String) (m : Message) : Nat × Bus :=
  let b := { b with stats := { b.stats with published := b.stats.published + 1 } }
  if isInbox subject then b.handToInbox subject m else b.handToAll subject m

/-! ## Subscriptions -/

/-- The id is drawn and listed at once. Where subscriptions are made in parallel, one may be listed before another with
a smaller id, so lists need not ascend; messages are offered in the order of the list then as well. -/
def subscribe (b : Bus) (agent topic : String) : Except Error (Subscription × Bus) :=
  if agent = "" ∨ topic = "" then .error (.validation "agent and topic required to subscribe")
  else
    let s : Subscription := { id := b.subscriptions.length + 1, subject := b.subjectFor agent topic }
    .ok (s, { b with
      subscriptions := b.subscriptions ++ [s]
      subjects := b.subjects.insert s.subject (b.listed s.subject ++ [s.id]) })

/-- The owner gives the subscription up; its loop may go on for a while. -/
def unsubscribe (b : Bus) (id : Nat) : Bus := b.update id fun s => { s with active := false }

def receive (b : Bus) (id : Nat) : Option (Message × Bus) :=
  match b.subscription? id with
  | some s =>
    match s.queue with
    | m :: rest => if s.listening then some (m, b.update id fun s => { s with queue := rest }) else none
    | [] => none
  | none => none

/-- The receive loop ends, and what it had not taken is lost. -/
def close (b : Bus) (id : Nat) : Bus :=
  b.update id fun s => if s.active then s else { s with listening := false, queue := [] }

/-! ## Messages -/

def publish (b : Bus) (ts : Tokens) (c : Context) (now : Moment) (m : Message) : Except Error Unit × Bus :=
  match c.check ts now with
  | .error e => (.error e, b)
  | .ok () => (.ok (), (b.deliver (b.subjectFor m.recipient m.topic) m).2)

def reply (b : Bus) (ts : Tokens) (c : Context) (now : Moment) (received answer : Message) :
    Except Error Unit × Bus :=
  match c.check ts now with
  | .error e => (.error e, b)
  | .ok () =>
    match received.replyTo with
    | none =>
      (.error (.communication s!"message {received.id} on {received.topic} has no reply inbox"), b)
    | some inbox =>
      let (taken, b) := b.deliver inbox answer
      if taken = 0 then
        (.error (.communication s!"requester for message {received.id} is gone"), b)
      else (.ok (), b)

end Bus
end Handover
