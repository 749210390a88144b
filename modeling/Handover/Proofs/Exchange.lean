import Handover.Coordinator
import Handover.Proofs.Bus

/-!
# Traffic on a bus

Messages are published, requests are made and looked after, and replies are given, by anybody and in any order. An
exchange keeps what came of each request and of each reply.
-/

namespace Handover

inductive InquiryState where
  | waits (r : Request)
  | returned (result : Except Error Message)

/-- A request that was made. -/
structure Inquiry where
  message : Message
  inboxId : String
  state : InquiryState

/-- A call to reply to a message. -/
structure Answer where
  context : Context
  around : Surroundings
  received : Message
  id : String
  payload : Json
  result : Except Error Unit
  before : Bus
  after : Bus

inductive Traffic where
  | subscribe (agent topic : String)
  | unsubscribe (subscription : Nat)
  /-- The receive loop of a subscription takes a message. -/
  | receive (subscription : Nat)
  /-- The receive loop ends. -/
  | close (subscription : Nat)
  | publish (ctx : Context) (around : Surroundings) (m : Message)
  | request (ctx : Context) (around : Surroundings) (m : Message) (timeout : Nat) (inboxId : String)
  /-- A requester looks whether its wait is over. -/
  | look (inquiry : Nat) (around : Surroundings)
  | reply (ctx : Context) (around : Surroundings) (received : Message) (id : String) (payload : Json)

structure Exchange where
  bus : Bus
  inquiries : List Inquiry := []
  answers : List Answer := []

namespace Inquiry

def inbox (q : Inquiry) : String := Bus.inboxPrefix ++ q.inboxId

end Inquiry

namespace Answer

def message (a : Answer) : Message := a.received.replyWith a.id a.around.time a.payload

/-- The reply went into this inbox. -/
structure Fills (a : Answer) (inbox : String) : Prop where
  addressed : a.received.replyTo = some inbox
  taken : a.result = .ok ()

/-- The requester was gone, or the replier's own context had ended. Nobody got anything. -/
structure Bounces (a : Answer) : Prop where
  cause : a.result = .error (.communication s!"requester for message {a.received.id} is gone") ∨
    ∃ e, a.context.check a.around.tokens a.around.moment = .error e ∧ a.result = .error e
  queues : a.after.subscriptions = a.before.subscriptions
  inboxes : a.after.inboxes = a.before.inboxes

end Answer

namespace Traffic

def inboxId? : Traffic → Option String
  | request _ _ _ _ inboxId => some inboxId
  | _ => none

/-- What is sent to an agent does not go to a subject that looks like an inbox. -/
def Ordinary (lead : String) : Traffic → Prop
  | publish _ _ m | request _ _ m _ _ => Bus.isInbox (Message.subject lead m.recipient m.topic) = false
  | _ => True

end Traffic

namespace Exchange

def opened (config : BusConfig) : Exchange where
  bus := .ofConfig config

def ask (e : Exchange) (ctx : Context) (around : Surroundings) (m : Message) (timeout : Nat) (inboxId : String) :
    Exchange :=
  let (result, bus) := e.bus.openRequest around.tokens ctx around.moment m timeout inboxId
  let state := match result with
    | .ok r => .waits r
    | .error err => .returned (.error err)
  { e with bus, inquiries := e.inquiries ++ [{ message := m, inboxId, state }] }

def look (e : Exchange) (i : Nat) (around : Surroundings) : Exchange :=
  match e.inquiries[i]? with
  | some { message, inboxId, state := .waits r } =>
    match e.bus.pollRequest around.tokens around.moment r with
    | some result =>
      { e with
        bus := e.bus.closeRequest r
        inquiries := e.inquiries.set i { message, inboxId, state := .returned result } }
    | none => e
  | _ => e

def answer (e : Exchange) (context : Context) (around : Surroundings) (received : Message) (id : String)
    (payload : Json) : Exchange :=
  let (result, bus) :=
    e.bus.reply around.tokens context around.moment received (received.replyWith id around.time payload)
  { e with
    bus
    answers := e.answers ++ [{ context, around, received, id, payload, result, before := e.bus, after := bus }] }

def step (e : Exchange) : Traffic → Exchange
  | .subscribe agent topic =>
    match e.bus.subscribe agent topic with
    | .ok (_, bus) => { e with bus }
    | .error _ => e
  | .unsubscribe id => { e with bus := e.bus.unsubscribe id }
  | .receive id =>
    match e.bus.receive id with
    | some (_, bus) => { e with bus }
    | none => e
  | .close id => { e with bus := e.bus.close id }
  | .publish ctx around m => { e with bus := (e.bus.publish around.tokens ctx around.moment m).2 }
  | .request ctx around m timeout inboxId => e.ask ctx around m timeout inboxId
  | .look i around => e.look i around
  | .reply ctx around received id payload => e.answer ctx around received id payload

def run (e : Exchange) (traffic : List Traffic) : Exchange := traffic.foldl step e

/-- The request in this place waits at this inbox. -/
def Waits (e : Exchange) (i : Nat) (inbox : String) : Prop :=
  ∃ q r, e.inquiries[i]? = some q ∧ q.state = .waits r ∧ r.inbox = inbox

end Exchange
end Handover
