import Handover.Proofs.Bus.Delivery
import Handover.Proofs.Exchange

/-!
# What happened on a bus

The history of an exchange has the bus before and after each thing that happened. From the queues before and after it
tells which messages a subscription accepted, which its loop took, and which it had no room for.
-/

namespace Handover

namespace Traffic

/-- The message that is sent, and its subject or inbox, if the sender has not given up. -/
def sent? (lead : String) : Traffic → Option (String × Message)
  | publish ctx around m =>
    match ctx.check around.tokens around.moment with
    | .ok () => some (Message.subject lead m.recipient m.topic, m)
    | .error _ => none
  | request ctx around m _ inboxId =>
    match ctx.check around.tokens around.moment with
    | .ok () =>
      some (Message.subject lead m.recipient m.topic, { m with replyTo := some (Bus.inboxPrefix ++ inboxId) })
    | .error _ => none
  | reply ctx around received id payload =>
    match ctx.check around.tokens around.moment with
    | .ok () => received.replyTo.map fun inbox => (inbox, received.replyWith id around.time payload)
    | .error _ => none
  | _ => none

/-- The agent and the topic that a subscription is made for. -/
def address? : Traffic → Option (String × String)
  | subscribe agent topic => if agent = "" ∨ topic = "" then none else some (agent, topic)
  | _ => none

/-- No subject of an agent looks like an inbox. -/
def Plain (lead : String) : Traffic → Prop
  | subscribe agent topic => Bus.isInbox (Message.subject lead agent topic) = false
  | t => t.Ordinary lead

theorem Plain.ordinary {lead : String} {t : Traffic} (plain : t.Plain lead) : t.Ordinary lead := by
  cases t
  case subscribe => trivial
  all_goals exact plain

/-- What sends a message makes no subscription, and takes nothing off a queue. -/
theorem sent?_alone {lead : String} {t : Traffic} (sent : t.sent? lead = some message) :
    t.address? = none ∧ ∀ id, t ≠ .receive id := by
  cases t with
  | publish | request | reply => exact ⟨rfl, fun _ => nofun⟩
  | _ => cases sent

end Traffic

/-- Something that happened on a bus. -/
structure Passing where
  before : Bus
  event : Traffic
  after : Bus

namespace Passing

def sent? (p : Passing) : Option (String × Message) := p.event.sent? p.before.subjectPrefix

/-- The message that was sent to the subject of a subscription. -/
def sentTo? (p : Passing) (id : Nat) : Option Message :=
  match p.before.subscription? id, p.sent? with
  | some s, some (subject, m) => if s.subject = subject then some m else none
  | _, _ => none

/-- The message that came into the queue of a subscription. -/
def accepted? (p : Passing) (id : Nat) : Option Message :=
  if (p.before.queueOf id).length < (p.after.queueOf id).length then (p.after.queueOf id).getLast? else none

/-- The message for which the queue of a subscription had no room. -/
def overflow? (p : Passing) (id : Nat) : Option Message :=
  if p.before.isListening id ∧ (p.accepted? id).isNone then p.sentTo? id else none

/-- The message that the loop of a subscription took, to have it handled. -/
def handled? (p : Passing) (id : Nat) : Option Message :=
  match p.event with
  | .receive other => if other = id then (p.before.receive id).map (·.1) else none
  | _ => none

/-- The inbox to which something was sent. -/
def inbox? (p : Passing) : Option String := (p.sent?.map (·.1)).filter Bus.isInbox

/-- What was sent to an inbox came into it. -/
def fills (p : Passing) : Bool :=
  p.inbox?.any fun inbox => (p.before.inboxes.get? inbox).join.isNone && (p.after.inboxes.get? inbox).join.isSome

/-- The inbox to which something was sent was gone. -/
def misses (p : Passing) : Bool := p.inbox?.isSome && !p.fills

end Passing

namespace Exchange

/-- All that happens in a run, in its order. -/
def history (e : Exchange) : List Traffic → List Passing
  | [] => []
  | t :: rest => ⟨e.bus, t, (e.step t).bus⟩ :: (e.step t).history rest

/-- Whatever happens in a run happens after a part of it. -/
theorem history_split {e : Exchange} {traffic : List Traffic} {p : Passing} (there : p ∈ e.history traffic) :
    ∃ earlier t later, traffic = earlier ++ t :: later ∧
      p = ⟨(e.run earlier).bus, t, ((e.run earlier).step t).bus⟩ := by
  induction traffic generalizing e with
  | nil => cases there
  | cons t rest ih =>
    rcases List.mem_cons.mp there with rfl | there
    · exact ⟨[], t, rest, rfl, rfl⟩
    · obtain ⟨earlier, t', later, rfl, rfl⟩ := ih there
      exact ⟨t :: earlier, t', later, rfl, rfl⟩

end Exchange

namespace Bus

/-- Nothing about the subscriptions changes, and nothing is counted. -/
structure Calm (b b' : Bus) : Prop where
  queues : SameQueues b b'
  stats : b'.stats = b.stats

theorem Calm.refl (b : Bus) : Calm b b := ⟨⟨rfl, rfl, rfl, rfl⟩, rfl⟩

/-- What a thing that happens does to the queues and the counts of a bus. -/
inductive Stirs (b : Bus) : Traffic → Bus → Prop where
  | still (silent : t.sent? b.subjectPrefix = none) (alone : t.address? = none)
      (idle : ∀ id, t = .receive id → b.receive id = none) (calm : Calm b b') : Stirs b t b'
  | joined (joins : Joins b agent topic s b') : Stirs b (.subscribe agent topic) b'
  | gaveUp (id : Nat) : Stirs b (.unsubscribe id) (b.unsubscribe id)
  | took {id : Nat} (done : b.receive id = some (m, b')) : Stirs b (.receive id) b'
  | ended (id : Nat) : Stirs b (.close id) (b.close id)
  | handed (sent : t.sent? b.subjectPrefix = some (subject, m)) (ordinary : isInbox subject = false)
      (hands : Hands b subject m b') : Stirs b t b'
  | posted (sent : t.sent? b.subjectPrefix = some (inbox, m)) (own : isInbox inbox = true) (queues : SameQueues b b')
      (posts : t.Ordinary b.subjectPrefix → Posts b inbox m b') : Stirs b t b'

end Bus

namespace Exchange
variable {e : Exchange} {t : Traffic}

theorem publish_stirs (sound : e.bus.Sound) (ctx : Context) (around : Surroundings) (m : Message) :
    e.bus.Stirs (.publish ctx around m) (e.bus.publish around.tokens ctx around.moment m).2 := by
  cases alive : ctx.check around.tokens around.moment with
  | error err =>
    rw [Bus.publish_barred alive]
    exact .still (by simp [Traffic.sent?, alive]) rfl nofun (.refl _)
  | ok u =>
    rw [Bus.publish_alive alive]
    have sent : (Traffic.publish ctx around m).sent? e.bus.subjectPrefix =
        some (e.bus.subjectFor m.recipient m.topic, m) := by simp [Traffic.sent?, alive, Bus.subjectFor]
    cases own : Bus.isInbox (e.bus.subjectFor m.recipient m.topic) with
    | false => exact .handed sent own (Bus.deliver_hands sound own m)
    | true => exact .posted sent own (Bus.deliver_posts own e.bus m).2 fun ordinary => nomatch own.symm.trans ordinary

theorem ask_stirs (sound : e.bus.Sound) (ctx : Context) (around : Surroundings) (m : Message) (timeout : Nat)
    (inboxId : String) :
    e.bus.Stirs (.request ctx around m timeout inboxId) (e.ask ctx around m timeout inboxId).bus := by
  change e.bus.Stirs _ (e.bus.openRequest around.tokens ctx around.moment m timeout inboxId).2
  cases alive : ctx.check around.tokens around.moment with
  | error err =>
    rw [Bus.openRequest_barred alive]
    exact .still (by simp [Traffic.sent?, alive]) rfl nofun (.refl _)
  | ok u =>
    have sent : (Traffic.request ctx around m timeout inboxId).sent? e.bus.subjectPrefix =
        some (e.bus.subjectFor m.recipient m.topic, { m with replyTo := some (Bus.inboxPrefix ++ inboxId) }) := by
      simp [Traffic.sent?, alive, Bus.subjectFor]
    cases own : Bus.isInbox (e.bus.subjectFor m.recipient m.topic) with
    | false => exact .handed sent own (Bus.openRequest_hands sound alive own timeout inboxId)
    | true =>
      exact .posted sent own (Bus.openRequest_same own _ _ _ _ _) fun ordinary => nomatch own.symm.trans ordinary

theorem answer_stirs (sound : e.bus.Sound) (ctx : Context) (around : Surroundings) (received : Message) (id : String)
    (payload : Json) :
    e.bus.Stirs (.reply ctx around received id payload) (e.answer ctx around received id payload).bus := by
  change e.bus.Stirs _
    (e.bus.reply around.tokens ctx around.moment received (received.replyWith id around.time payload)).2
  cases alive : ctx.check around.tokens around.moment with
  | error err =>
    rw [Bus.reply_barred alive]
    exact .still (by simp [Traffic.sent?, alive]) rfl nofun (.refl _)
  | ok u =>
    cases addressed : received.replyTo with
    | none =>
      have idle : (e.bus.reply around.tokens ctx around.moment received
          (received.replyWith id around.time payload)).2 = e.bus := by simp [Bus.reply, alive, addressed]
      rw [idle]
      exact .still (by simp [Traffic.sent?, alive, addressed]) rfl nofun (.refl _)
    | some inbox =>
      rw [Bus.reply_delivers alive addressed]
      have sent : (Traffic.reply ctx around received id payload).sent? e.bus.subjectPrefix =
          some (inbox, received.replyWith id around.time payload) := by simp [Traffic.sent?, alive, addressed]
      cases own : Bus.isInbox inbox with
      | false => exact .handed sent own (Bus.deliver_hands sound own _)
      | true =>
        obtain ⟨posts, queues⟩ := Bus.deliver_posts own e.bus (received.replyWith id around.time payload)
        exact .posted sent own queues fun _ => posts

theorem look_calm (e : Exchange) (i : Nat) (around : Surroundings) : Bus.Calm e.bus (e.look i around).bus := by
  unfold look
  split
  · split <;> exact ⟨⟨rfl, rfl, rfl, rfl⟩, rfl⟩
  · exact ⟨⟨rfl, rfl, rfl, rfl⟩, rfl⟩

theorem subscribe_error {agent topic : String} {err : Error} (refused : e.bus.subscribe agent topic = .error err) :
    (Traffic.subscribe agent topic).address? = none := by
  unfold Bus.subscribe at refused
  split at refused
  · rename_i nameless
    exact if_pos nameless
  · cases refused

theorem step_stirs (sound : e.bus.Sound) (t : Traffic) : e.bus.Stirs t (e.step t).bus := by
  cases t with
  | subscribe agent topic =>
    dsimp only [step]
    split
    · rename_i done
      exact .joined (Bus.subscribe_joins done)
    · rename_i refused
      exact .still rfl (subscribe_error refused) nofun (.refl _)
  | unsubscribe id => exact .gaveUp id
  | receive id =>
    dsimp only [step]
    split
    · rename_i done
      exact .took done
    · rename_i nothing
      exact .still rfl rfl (fun _ same => by cases same; exact nothing) (.refl _)
  | close id => exact .ended id
  | publish ctx around m => exact publish_stirs sound ctx around m
  | request ctx around m timeout inboxId => exact ask_stirs sound ctx around m timeout inboxId
  | look i around => exact .still rfl rfl nofun (look_calm e i around)
  | reply ctx around received id payload => exact answer_stirs sound ctx around received id payload

end Exchange

namespace Bus
variable {b b' : Bus} {t : Traffic} {agent topic : String} {s : Subscription}

theorem Joins.address (joins : Joins b agent topic s b') :
    (Traffic.subscribe agent topic).address? = some (agent, topic) := if_neg joins.named

/-- A subscription is made, or there are no more than before and nobody whose loop runs is taken off a list. -/
theorem Stirs.joins_or_thins (stirs : b.Stirs t b') (sound : b.Sound) :
    (∃ agent topic s, t.address? = some (agent, topic) ∧ Joins b agent topic s b') ∨
      t.address? = none ∧ Thins b b' := by
  cases stirs with
  | still _ alone _ calm => exact .inr ⟨alone, calm.queues.thins sound⟩
  | joined joins => exact .inl ⟨_, _, _, joins.address, joins⟩
  | gaveUp id => exact .inr ⟨rfl, unsubscribe_thins sound id⟩
  | took done => exact .inr ⟨rfl, receive_thins sound done⟩
  | ended id => exact .inr ⟨rfl, close_thins sound id⟩
  | handed sent _ hands => exact .inr ⟨(Traffic.sent?_alone sent).1, hands.thins sound⟩
  | posted sent _ queues => exact .inr ⟨(Traffic.sent?_alone sent).1, queues.thins sound⟩

theorem Stirs.sound (stirs : b.Stirs t b') (sound : b.Sound) : b'.Sound := by
  rcases stirs.joins_or_thins sound with ⟨_, _, _, _, joins⟩ | ⟨_, thins⟩
  · exact joins.sound sound
  · exact thins.sound sound

theorem Stirs.settings (stirs : b.Stirs t b') : b'.capacity = b.capacity ∧ b'.subjectPrefix = b.subjectPrefix := by
  cases stirs with
  | still _ _ _ calm => exact ⟨calm.queues.capacity, calm.queues.lead⟩
  | joined joins => exact ⟨joins.capacity, joins.lead⟩
  | gaveUp | ended => exact ⟨rfl, rfl⟩
  | took done =>
    obtain ⟨s, rest, _, _, _, rfl⟩ := receive_some done
    exact ⟨rfl, rfl⟩
  | handed _ _ hands => exact ⟨hands.capacity, hands.lead⟩
  | posted _ _ queues => exact ⟨queues.capacity, queues.lead⟩

theorem Stirs.silent (stirs : b.Stirs t b') (silent : t.sent? b.subjectPrefix = none) : b'.stats = b.stats := by
  cases stirs with
  | still _ _ _ calm => exact calm.stats
  | joined joins => exact joins.stats
  | gaveUp | ended => rfl
  | took done =>
    obtain ⟨s, rest, _, _, _, rfl⟩ := receive_some done
    rfl
  | handed sent | posted sent => cases silent.symm.trans sent

theorem Stirs.sent (stirs : b.Stirs t b') (sent : t.sent? b.subjectPrefix = some (subject, m)) :
    isInbox subject = false ∧ Hands b subject m b' ∨
      isInbox subject = true ∧ SameQueues b b' ∧ (t.Ordinary b.subjectPrefix → Posts b subject m b') := by
  cases stirs with
  | still silent => cases silent.symm.trans sent
  | joined | gaveUp | took | ended => cases sent
  | handed sent' ordinary hands =>
    cases sent'.symm.trans sent
    exact .inl ⟨ordinary, hands⟩
  | posted sent' own queues posts =>
    cases sent'.symm.trans sent
    exact .inr ⟨own, queues, posts⟩

/-- Subscriptions never change their subjects. -/
theorem Stirs.subjects (stirs : b.Stirs t b') :
    b'.subscriptions.map Subscription.subject = b.subscriptions.map Subscription.subject ++
      t.address?.toList.map fun address => b.subjectFor address.1 address.2 := by
  have mapped : ∀ f : Subscription → Subscription, (∀ s, (f s).subject = s.subject) →
      (b.subscriptions.map f).map Subscription.subject = b.subscriptions.map Subscription.subject ++ [] := by
    intro f keeps
    rw [List.map_map, List.append_nil]
    exact List.map_congr_left fun s _ => keeps s
  cases stirs with
  | still _ alone _ calm => rw [calm.queues.subscriptions, alone, Option.toList_none, List.map_nil, List.append_nil]
  | joined joins =>
    rw [joins.subscriptions, List.map_append, joins.address, joins.new]
    rfl
  | gaveUp id => exact mapped _ fun s => by split <;> rfl
  | took done =>
    obtain ⟨s, rest, _, _, _, rfl⟩ := receive_some done
    exact mapped _ fun s => by split <;> rfl
  | ended id =>
    refine mapped _ fun s => ?_
    dsimp only
    split
    · split <;> rfl
    · rfl
  | handed sent _ hands =>
    rw [hands.subscriptions, (Traffic.sent?_alone sent).1]
    exact mapped _ fun s => by split <;> rfl
  | posted sent _ queues =>
    rw [queues.subscriptions, (Traffic.sent?_alone sent).1, Option.toList_none, List.map_nil, List.append_nil]

end Bus
end Handover
