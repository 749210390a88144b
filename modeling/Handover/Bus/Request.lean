import Handover.Bus.Basic

/-!
# Requests

A request is a message that waits for one reply, in an inbox of its own. The wait ends with the reply, with
the cancellation of the context, or at the earlier of its own limit and the deadline of the context.
-/

namespace Handover

structure Request where
  subject : String
  inbox : String
  timeoutMillis : Nat
  limit : Moment
  bound : Bound
  deriving DecidableEq, Repr

namespace Bus

/-- Sends a message out with an inbox of its own for the reply. All of this is done at one moment, so the context,
which is checked at first, has not ended when the wait begins; a second check (`Bound.start`) would find nothing. -/
def openRequest (b : Bus) (ts : Tokens) (c : Context) (now : Moment) (m : Message) (timeout : Nat)
    (inboxId : String) : Except Error Request × Bus :=
  match c.check ts now with
  | .error e => (.error e, b)
  | .ok () =>
    let subject := b.subjectFor m.recipient m.topic
    if b.subscriberCount subject = 0 then
      (.error (.communication s!"no responders on {subject}"), b)
    else
      let inbox := inboxPrefix ++ inboxId
      let waiting := { b with inboxes := b.inboxes.insert inbox none }
      let (taken, sent) := waiting.deliver subject { m with replyTo := some inbox }
      if taken = 0 then
        (.error (.communication s!"request to {subject} was not delivered"),
          { sent with inboxes := sent.inboxes.erase inbox })
      else
        let wait := c.effectiveTimeout now timeout
        (.ok { subject, inbox, timeoutMillis := wholeMillis wait, limit := now + wait,
               bound := .make c now subject }, sent)

/-- What the wait has come to, if it is over. When the reply has come and the context has ended as well, either may be
what the requester sees first; here it is the reply. -/
def pollRequest (b : Bus) (ts : Tokens) (now : Moment) (r : Request) : Option (Except Error Message) :=
  match b.inboxes.get? r.inbox with
  | some (some m) => some (.ok m)
  | some none | none =>
    if r.limit ≤ now then
      some (.error ((r.bound.poll ts now).getD (.timeout r.subject r.timeoutMillis)))
    else (r.bound.poll ts now).map .error

/-- A request that has ended leaves no inbox behind. -/
def closeRequest (b : Bus) (r : Request) : Bus := { b with inboxes := b.inboxes.erase r.inbox }

end Bus
end Handover
