import Handover.Proofs.Bus.Queues

/-!
# What the operations hand out

A message to an ordinary subject is offered to all who subscribed to it, and a message to an inbox goes in if a request
waits there. An operation whose caller gave up does nothing.
-/

namespace Handover
namespace Bus

/-- What comes of a message to an inbox. -/
inductive Posts (b : Bus) (inbox : String) (m : Message) : Bus → Prop where
  | filled (waits : b.inboxes.get? inbox = some none) (inboxes : b'.inboxes = b.inboxes.insert inbox (some m))
      (delivered : b'.stats.delivered = b.stats.delivered + 1) (dropped : b'.stats.dropped = b.stats.dropped) :
      Posts b inbox m b'
  | lost (gone : b.inboxes.get? inbox ≠ some none) (inboxes : b'.inboxes = b.inboxes)
      (delivered : b'.stats.delivered = b.stats.delivered) (dropped : b'.stats.dropped = b.stats.dropped + 1) :
      Posts b inbox m b'

variable {b : Bus} {s : Subscription} {subject inbox inboxId : String} {m received answer : Message} {ts : Tokens}
  {c : Context} {now : Moment} {timeout : Nat} {e : Error}

theorem deliver_hands (sound : b.Sound) (ordinary : isInbox subject = false) (m : Message) :
    Hands b subject m (b.deliver subject m).2 := by
  have same : SameQueues b { b with stats := { b.stats with published := b.stats.published + 1 } } :=
    ⟨rfl, rfl, rfl, rfl⟩
  have hands := handToAll_hands (same.sound sound) subject m
  rw [deliver, ordinary]
  exact ⟨hands.subscriptions, hands.listed, hands.kept, hands.capacity, hands.lead, hands.delivered, hands.dropped⟩

theorem deliver_posts (own : isInbox inbox = true) (b : Bus) (m : Message) :
    Posts b inbox m (b.deliver inbox m).2 ∧ SameQueues b (b.deliver inbox m).2 := by
  simp only [deliver, own, if_true, handToInbox]
  split
  · rename_i waits
    exact ⟨.filled waits rfl rfl rfl, rfl, rfl, rfl, rfl⟩
  · rename_i filled
    have gone : b.inboxes.get? inbox ≠ some none := by
      rw [filled]
      rintro ⟨⟩
    exact ⟨.lost gone rfl rfl rfl, rfl, rfl, rfl, rfl⟩
  · rename_i missing
    have gone : b.inboxes.get? inbox ≠ some none := by
      rw [missing]
      rintro ⟨⟩
    exact ⟨.lost gone rfl rfl rfl, rfl, rfl, rfl, rfl⟩

theorem Sound.unheard (sound : b.Sound) (nobody : b.subscriberCount subject = 0) (there : s ∈ b.subscriptions)
    (on : s.subject = subject) : s.listening = false := by
  cases listening : s.listening with
  | false => rfl
  | true =>
    have known : s.id ∈ (b.listed subject).filter b.isListening :=
      List.mem_filter.mpr ⟨on ▸ sound.listed s there listening, (sound.isListening there).trans listening⟩
    rw [List.length_eq_zero_iff.mp nobody] at known
    cases known

/-- A subject on which nobody listens. -/
theorem Sound.hands_nobody (sound : b.Sound) (nobody : b.subscriberCount subject = 0) (m : Message) :
    Hands b subject m b := by
  have deaf : ∀ s ∈ b.subscriptions, s.takes b.capacity subject = false ∧ s.overflows b.capacity subject = false := by
    intro s there
    rw [← Bool.not_eq_true, ← Bool.not_eq_true, Subscription.takes_iff, Subscription.overflows_iff]
    constructor
    · rintro ⟨on, listening, _⟩
      exact nomatch listening.symm.trans (sound.unheard nobody there on)
    · rintro ⟨on, listening, _⟩
      exact nomatch listening.symm.trans (sound.unheard nobody there on)
  refine ⟨?_, fun _ => List.Sublist.refl _, fun _ _ there _ => there, rfl, rfl, ?_, ?_⟩
  · conv => lhs; rw [← List.map_id' b.subscriptions]
    refine List.map_congr_left fun s there => ?_
    rw [(deaf s there).1]
    rfl
  · rw [List.countP_eq_zero.mpr fun s there => by simp [deaf s there]]
    rfl
  · rw [List.countP_eq_zero.mpr fun s there => by simp [deaf s there]]
    rfl

theorem publish_alive (alive : c.check ts now = .ok ()) :
    b.publish ts c now m = (.ok (), (b.deliver (b.subjectFor m.recipient m.topic) m).2) := by
  rw [publish, alive]

theorem publish_barred (gone : c.check ts now = .error e) : b.publish ts c now m = (.error e, b) := by
  rw [publish, gone]

theorem openRequest_barred (gone : c.check ts now = .error e) :
    b.openRequest ts c now m timeout inboxId = (.error e, b) := by
  rw [openRequest, gone]

theorem openRequest_hands (sound : b.Sound) (alive : c.check ts now = .ok ())
    (ordinary : isInbox (b.subjectFor m.recipient m.topic) = false) (timeout : Nat) (inboxId : String) :
    Hands b (b.subjectFor m.recipient m.topic) { m with replyTo := some (inboxPrefix ++ inboxId) }
      (b.openRequest ts c now m timeout inboxId).2 := by
  unfold openRequest
  rw [alive]
  dsimp only
  split
  · rename_i nobody
    exact sound.hands_nobody nobody _
  · have same : SameQueues b { b with inboxes := b.inboxes.insert (inboxPrefix ++ inboxId) none } :=
      ⟨rfl, rfl, rfl, rfl⟩
    have hands := deliver_hands (same.sound sound) ordinary { m with replyTo := some (inboxPrefix ++ inboxId) }
    split <;>
      exact ⟨hands.subscriptions, hands.listed, hands.kept, hands.capacity, hands.lead, hands.delivered, hands.dropped⟩

/-- A request is not refused if a subscription takes it. -/
theorem openRequest_ok (sound : b.Sound) (alive : c.check ts now = .ok ())
    (ordinary : isInbox (b.subjectFor m.recipient m.topic) = false) (there : s ∈ b.subscriptions)
    (takes : s.takes b.capacity (b.subjectFor m.recipient m.topic) = true) (timeout : Nat) (inboxId : String) :
    ∃ r, (b.openRequest ts c now m timeout inboxId).1 = .ok r := by
  obtain ⟨on, listening, _⟩ := Subscription.takes_iff.mp takes
  have heard : b.subscriberCount (b.subjectFor m.recipient m.topic) ≠ 0 := fun nobody =>
    nomatch listening.symm.trans (sound.unheard nobody there on)
  have same : SameQueues b { b with
      inboxes := b.inboxes.insert (inboxPrefix ++ inboxId) none
      stats := { b.stats with published := b.stats.published + 1 } } := ⟨rfl, rfl, rfl, rfl⟩
  have taken := (same.sound sound).handToAll_taken (b.subjectFor m.recipient m.topic)
    { m with replyTo := some (inboxPrefix ++ inboxId) }
  have some' : 0 < b.subscriptions.countP (·.takes b.capacity (b.subjectFor m.recipient m.topic)) :=
    List.countP_pos_iff.mpr ⟨s, there, takes⟩
  unfold openRequest deliver
  simp only [alive, if_neg heard, ordinary, Bool.false_eq_true, if_false, taken]
  rw [if_neg (Nat.ne_of_gt some')]
  exact ⟨_, rfl⟩

theorem openRequest_same (own : isInbox (b.subjectFor m.recipient m.topic) = true) (ts : Tokens) (c : Context)
    (now : Moment) (timeout : Nat) (inboxId : String) :
    SameQueues b (b.openRequest ts c now m timeout inboxId).2 := by
  unfold openRequest
  split
  · exact ⟨rfl, rfl, rfl, rfl⟩
  · dsimp only
    split
    · exact ⟨rfl, rfl, rfl, rfl⟩
    · obtain ⟨_, same⟩ := deliver_posts own { b with inboxes := b.inboxes.insert (inboxPrefix ++ inboxId) none }
        { m with replyTo := some (inboxPrefix ++ inboxId) }
      split <;> exact ⟨same.subscriptions, same.subjects, same.capacity, same.lead⟩

theorem reply_barred (gone : c.check ts now = .error e) : b.reply ts c now received answer = (.error e, b) := by
  rw [reply, gone]

theorem reply_delivers (alive : c.check ts now = .ok ()) (addressed : received.replyTo = some subject) :
    (b.reply ts c now received answer).2 = (b.deliver subject answer).2 := by
  rw [reply, alive]
  simp only [addressed]
  split <;> rfl

end Bus
end Handover
