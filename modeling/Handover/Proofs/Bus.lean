import Handover.Bus.Request
import Handover.Proofs.Table

/-!
# What calls to the bus do to the inboxes

Messages to ordinary subjects leave the inboxes alone. Of the replies to an inbox the bus takes one while the request
waits, `Replied`, and a request opens its inbox only if somebody got the message, `Opens`.
-/

namespace Handover
namespace Bus
/-- What changes of the subscriptions and of the counts leave alone. -/
structure SameBoxes (b b' : Bus) : Prop where
  inboxes : b'.inboxes = b.inboxes
  lead : b'.subjectPrefix = b.subjectPrefix

/-- Nothing is put into a queue or into an inbox. -/
structure Unmoved (b b' : Bus) : Prop where
  boxes : SameBoxes b b'
  subscriptions : b'.subscriptions = b.subscriptions

/-- What may come of a reply. -/
inductive Replied (b : Bus) (ts : Tokens) (c : Context) (now : Moment) (received answer : Message) :
    Except Error Unit → Bus → Prop where
  | barred (gone : c.check ts now = .error e) : Replied b ts c now received answer (.error e) b
  | unaddressed (none : received.replyTo = none) : Replied b ts c now received answer
      (.error (.communication s!"message {received.id} on {received.topic} has no reply inbox")) b
  /-- What the message names for an inbox is an ordinary subject. -/
  | astray (addressed : received.replyTo = some subject) (ordinary : isInbox subject = false)
      (boxes : SameBoxes b b') : Replied b ts c now received answer result b'
  | taken (addressed : received.replyTo = some inbox) (own : isInbox inbox = true)
      (waits : b.inboxes.get? inbox = some none) (inboxes : b'.inboxes = b.inboxes.insert inbox (some answer))
      (lead : b'.subjectPrefix = b.subjectPrefix) : Replied b ts c now received answer (.ok ()) b'
  | late (addressed : received.replyTo = some inbox) (own : isInbox inbox = true) (unmoved : Unmoved b b') :
      Replied b ts c now received answer
        (.error (.communication s!"requester for message {received.id} is gone")) b'

/-- What may come of opening a request. -/
inductive Opens (b : Bus) (inboxId : String) : Except Error Request → Bus → Prop where
  | refused (lead : b'.subjectPrefix = b.subjectPrefix)
      (inboxes : ∀ inbox, b.inboxes.get? (inboxPrefix ++ inboxId) = none →
        b'.inboxes.get? inbox = b.inboxes.get? inbox) : Opens b inboxId (.error e) b'
  | sent {r : Request} (own : r.inbox = inboxPrefix ++ inboxId)
      (inboxes : b'.inboxes = b.inboxes.insert (inboxPrefix ++ inboxId) none)
      (lead : b'.subjectPrefix = b.subjectPrefix) : Opens b inboxId (.ok r) b'

variable {b b' : Bus} {subject inbox inboxId other : String} {m received answer : Message} {ids : List Nat}
  {ts : Tokens} {c : Context} {now : Moment} {result : Except Error Unit} {timeout : Nat}

theorem isInbox_inbox (inboxId : String) : isInbox (inboxPrefix ++ inboxId) = true := by
  rw [isInbox, List.isPrefixOf_iff_prefix, String.toList_append]
  exact List.prefix_append _ _

theorem inbox_eq_iff : inboxPrefix ++ other = inboxPrefix ++ inboxId ↔ other = inboxId := by
  rw [← String.toList_inj, String.toList_append, String.toList_append, List.append_cancel_left_eq, String.toList_inj]

theorem SameBoxes.trans {b'' : Bus} (first : SameBoxes b b') (second : SameBoxes b' b'') : SameBoxes b b'' :=
  ⟨second.inboxes.trans first.inboxes, second.lead.trans first.lead⟩

theorem handTo_same (b : Bus) (m : Message) (id : Nat) : SameBoxes b (b.handTo m id) := by
  unfold handTo
  split <;> exact ⟨rfl, rfl⟩

theorem handed_same (b : Bus) (m : Message) (ids : List Nat) :
    SameBoxes b (ids.foldl (fun b id => b.handTo m id) b) := by
  induction ids generalizing b with
  | nil => exact ⟨rfl, rfl⟩
  | cons id rest ih => exact (handTo_same b m id).trans (ih _)

theorem prune_same (b : Bus) (subject : String) (ids : List Nat) : SameBoxes b (b.prune subject ids) := by
  unfold prune
  split
  · exact ⟨rfl, rfl⟩
  · split <;> exact ⟨rfl, rfl⟩

theorem handToAll_same (b : Bus) (subject : String) (m : Message) : SameBoxes b (b.handToAll subject m).2 := by
  have handed := handed_same b m (b.listed subject)
  unfold handToAll
  dsimp only
  split
  · exact ⟨handed.inboxes, handed.lead⟩
  · have pruned := handed.trans (prune_same _ subject ((b.listed subject).filter fun id => b.offerTo id == .closed))
    exact ⟨pruned.inboxes, pruned.lead⟩

theorem deliver_same (ordinary : isInbox subject = false) (b : Bus) (m : Message) :
    SameBoxes b (b.deliver subject m).2 := by
  have sent := handToAll_same { b with stats := { b.stats with published := b.stats.published + 1 } } subject m
  rw [deliver, ordinary]
  exact ⟨sent.inboxes, sent.lead⟩

theorem subscribe_same {agent topic : String} {s : Subscription} (done : b.subscribe agent topic = .ok (s, b')) :
    SameBoxes b b' := by
  unfold subscribe at done
  split at done
  · cases done
  · cases done
    exact ⟨rfl, rfl⟩

theorem receive_same {id : Nat} (done : b.receive id = some (m, b')) : SameBoxes b b' := by
  unfold receive at done
  split at done
  · split at done
    · split at done
      · cases done
        exact ⟨rfl, rfl⟩
      · cases done
    · cases done
  · cases done

theorem publish_same (ordinary : isInbox (b.subjectFor m.recipient m.topic) = false) :
    SameBoxes b (b.publish ts c now m).2 := by
  unfold publish
  split
  · exact ⟨rfl, rfl⟩
  · exact deliver_same ordinary b m

theorem reply_replied (b : Bus) (ts : Tokens) (c : Context) (now : Moment) (received answer : Message) :
    Replied b ts c now received answer (b.reply ts c now received answer).1 (b.reply ts c now received answer).2 := by
  unfold reply
  split
  · rename_i gone
    exact .barred gone
  · split
    · rename_i none
      exact .unaddressed none
    · rename_i inbox addressed
      cases own : isInbox inbox with
      | false =>
        have boxes := deliver_same own b answer
        dsimp only
        split <;> exact .astray addressed own boxes
      | true =>
        simp only [deliver, own, if_true, handToInbox]
        cases found : b.inboxes.get? inbox with
        | none => exact .late addressed own ⟨⟨rfl, rfl⟩, rfl⟩
        | some content =>
          cases content with
          | none => exact .taken addressed own found rfl rfl
          | some earlier => exact .late addressed own ⟨⟨rfl, rfl⟩, rfl⟩

theorem openRequest_opens (ordinary : isInbox (b.subjectFor m.recipient m.topic) = false) (ts : Tokens) (c : Context)
    (now : Moment) (timeout : Nat) (inboxId : String) :
    Opens b inboxId (b.openRequest ts c now m timeout inboxId).1 (b.openRequest ts c now m timeout inboxId).2 := by
  unfold openRequest
  split
  · exact .refused rfl fun _ _ => rfl
  · dsimp only
    split
    · exact .refused rfl fun _ _ => rfl
    · have sent := deliver_same ordinary { b with inboxes := b.inboxes.insert (inboxPrefix ++ inboxId) none }
        { m with replyTo := some (inboxPrefix ++ inboxId) }
      split
      · refine .refused sent.lead fun inbox fresh => ?_
        rw [sent.inboxes, Table.get?_erase]
        split
        · rename_i same
          rw [same, fresh]
        · rename_i differ
          exact Table.get?_insert_of_ne differ none b.inboxes
      · exact .sent rfl sent.inboxes sent.lead

theorem pollRequest_ok {r : Request} (done : b.pollRequest ts now r = some (.ok m)) :
    b.inboxes.get? r.inbox = some (some m) := by
  unfold pollRequest at done
  split at done
  · rename_i found
    cases done
    exact found
  all_goals
    split at done
    · cases done
    · cases polled : r.bound.poll ts now <;> rw [polled] at done <;> cases done

end Bus
end Handover
