import Handover.Proofs.Bus.Delivery
import Handover.Proofs.Context

/-!
# What a request waits for

A request whose message was taken waits for a reply, for the cancellation of its context, and for the last moment of its
wait, which is its own limit or the deadline of the context. Of its two timers it does not matter which one goes off:
`poll_comes`. As long as an inbox is not closed it keeps what came into it: `Retains`.
-/

namespace Handover

/-- What may end the wait of a request. -/
structure Awaited where
  subject : String
  inbox : String
  token : TokenId
  began : Moment
  /-- When the wait ends if nothing else ends it. -/
  last : Moment

namespace Awaited

def of (b : Bus) (c : Context) (now : Moment) (m : Message) (timeout : Nat) (inboxId : String) : Awaited where
  subject := b.subjectFor m.recipient m.topic
  inbox := Bus.inboxPrefix ++ inboxId
  token := c.token
  began := now
  last := c.latest now timeout

/-- One of the things has come, and with it this result. -/
inductive Comes (w : Awaited) (b : Bus) (ts : Tokens) (now : Moment) : Except Error Message → Prop where
  | replied (there : b.inboxes.get? w.inbox = some (some m)) : Comes w b ts now (.ok m)
  | cancelled (gone : ts.isCancelled w.token = true) : Comes w b ts now (.error .cancelled)
  | elapsed (late : now = w.last) : Comes w b ts now (.error (.timeout w.subject (wholeMillis (w.last - w.began))))

/-- The request waits for this. -/
structure By (w : Awaited) (r : Request) : Prop where
  subject : r.subject = w.subject
  inbox : r.inbox = w.inbox
  limit : r.limit = w.last
  millis : r.timeoutMillis = wholeMillis (w.last - w.began)
  bound : r.bound.subject = w.subject ∧ r.bound.token = w.token
  /-- The other timer is not earlier, and has the time that is left until it goes off. -/
  deadline : ∀ d, r.bound.deadline = some d → w.last ≤ d ∧ r.bound.budgetMillis = wholeMillis (d - w.began)

end Awaited

namespace Request

/-- When the wait is over if nothing else happens. -/
def alarm (r : Request) : Moment :=
  match r.bound.deadline with
  | some d => min d r.limit
  | none => r.limit

end Request

namespace Bus
variable {b b' b'' : Bus} {w : Awaited} {r : Request} {ts : Tokens} {c : Context} {now : Moment} {m received : Message}
  {result : Except Error Message} {subject inbox inboxId : String} {timeout : Nat} {e : Error}

/-! ## The end of a wait -/

theorem alarm_by (own : w.By r) : r.alarm = w.last := by
  unfold Request.alarm
  rw [own.limit]
  cases deadline : r.bound.deadline with
  | none => rfl
  | some d => exact Nat.min_eq_right (own.deadline d deadline).1

/-- What the wait gives back has come. -/
theorem poll_comes (own : w.By r) (early : now ≤ w.last) (polled : b.pollRequest ts now r = some result) :
    w.Comes b ts now result := by
  have timers : ∀ e, r.bound.poll ts now = some e → w.Comes b ts now (.error e) := by
    intro e rung
    unfold Bound.poll at rung
    rw [own.bound.1, own.bound.2] at rung
    split at rung
    · rename_i gone
      cases rung
      exact .cancelled gone
    · split at rung
      · rename_i d deadline
        split at rung
        · rename_i late
          obtain ⟨after, budget⟩ := own.deadline d deadline
          obtain rfl : now = d := Nat.le_antisymm (Nat.le_trans early after) late
          obtain rfl : now = w.last := Nat.le_antisymm early after
          cases rung
          rw [budget]
          exact .elapsed rfl
        · cases rung
      · cases rung
  unfold pollRequest at polled
  rw [own.inbox] at polled
  split at polled
  · rename_i there
    cases polled
    exact .replied there
  all_goals
    split at polled
    · rename_i late
      rw [own.limit] at late
      cases rung : r.bound.poll ts now with
      | some e =>
        rw [rung] at polled
        cases polled
        exact timers e rung
      | none =>
        rw [rung, own.subject, own.millis] at polled
        cases polled
        exact .elapsed (Nat.le_antisymm early late)
    · obtain ⟨e, rung, rfl⟩ := Option.map_eq_some_iff.mp polled
      exact timers e rung

theorem comes_polled (own : w.By r) (comes : w.Comes b ts now result) : (b.pollRequest ts now r).isSome = true := by
  unfold pollRequest
  rw [own.inbox, own.limit]
  cases comes with
  | replied there => simp [there]
  | cancelled gone =>
    have rung : r.bound.poll ts now = some .cancelled := by
      rw [Bound.poll, own.bound.2, if_pos gone]
    split
    · rfl
    all_goals
      split
      · rfl
      · rw [rung]
        rfl
  | elapsed late =>
    split
    · rfl
    all_goals
      rw [if_pos (Nat.le_of_eq late.symm)]
      rfl

theorem alarm_polled (late : r.alarm ≤ now) : (b.pollRequest ts now r).isSome = true := by
  unfold Request.alarm at late
  by_cases limit : r.limit ≤ now
  · unfold pollRequest
    split
    · rfl
    all_goals
      rw [if_pos limit]
      rfl
  · cases deadline : r.bound.deadline with
    | none =>
      rw [deadline] at late
      exact absurd late limit
    | some d =>
      rw [deadline] at late
      have first : ∀ a b n : Nat, min a b ≤ n → ¬ b ≤ n → a ≤ n := by omega
      have rung : d ≤ now := first d r.limit now late limit
      have polled : (r.bound.poll ts now).isSome = true := by
        unfold Bound.poll
        rw [deadline]
        dsimp only
        rw [if_pos rung]
        split <;> rfl
      unfold pollRequest
      split
      · rfl
      all_goals
        rw [if_neg limit, Option.isSome_map]
        exact polled

/-! ## What becomes of a request at once -/

/-- The subscription is on the subject, and its loop runs. -/
structure Hears (b : Bus) (subject : String) (s : Subscription) : Prop where
  there : ∃ id ∈ b.listed subject, b.subscription? id = some s
  listening : s.listening = true

/-- Those on the subject who take a message. -/
def takers (b : Bus) (subject : String) : List Nat := (b.listed subject).filter fun id => b.offerTo id == .accepted

theorem subscriberCount_eq_zero_iff : b.subscriberCount subject = 0 ↔ ∀ s, ¬ b.Hears subject s := by
  rw [subscriberCount, List.length_eq_zero_iff, List.filter_eq_nil_iff]
  constructor
  · rintro deaf s ⟨⟨id, there, found⟩, listening⟩
    have deaf' := deaf id there
    rw [isListening, found] at deaf'
    exact deaf' listening
  · intro nobody id there listening
    unfold isListening at listening
    split at listening
    · rename_i s found
      exact nobody s ⟨⟨id, there, found⟩, listening⟩
    · cases listening

theorem takers_eq_nil_iff : b.takers subject = [] ↔ ∀ s, b.Hears subject s → b.capacity ≤ s.queue.length := by
  rw [takers, List.filter_eq_nil_iff]
  constructor
  · rintro full s ⟨⟨id, there, found⟩, listening⟩
    have full' := full id there
    rw [offerTo, found, beq_iff_eq, Subscription.offer_accepted_iff, not_and, Nat.not_lt] at full'
    exact full' listening
  · intro full id there taken
    unfold offerTo at taken
    split at taken
    · rename_i s found
      rw [beq_iff_eq, Subscription.offer_accepted_iff] at taken
      exact absurd taken.2 (Nat.not_lt.mpr (full s ⟨⟨id, there, found⟩, taken.1⟩))
    · cases taken

theorem openRequest_unheard (alive : c.check ts now = .ok ())
    (nobody : ∀ s, ¬ b.Hears (b.subjectFor m.recipient m.topic) s) (timeout : Nat) (inboxId : String) :
    b.openRequest ts c now m timeout inboxId =
      (.error (.communication s!"no responders on {b.subjectFor m.recipient m.topic}"), b) := by
  simp only [openRequest, alive, subscriberCount_eq_zero_iff.mpr nobody, if_true]

section
variable (alive : c.check ts now = .ok ()) (ordinary : isInbox (b.subjectFor m.recipient m.topic) = false)
include alive ordinary

theorem openRequest_taken (heard : b.Hears (b.subjectFor m.recipient m.topic) s) (timeout : Nat) (inboxId : String) :
    (b.openRequest ts c now m timeout inboxId).1 =
      if (b.takers (b.subjectFor m.recipient m.topic)).length = 0 then
        .error (.communication s!"request to {b.subjectFor m.recipient m.topic} was not delivered")
      else .ok {
        subject := b.subjectFor m.recipient m.topic
        inbox := inboxPrefix ++ inboxId
        timeoutMillis := wholeMillis (c.effectiveTimeout now timeout)
        limit := now + c.effectiveTimeout now timeout
        bound := .make c now (b.subjectFor m.recipient m.topic) } := by
  have some : b.subscriberCount (b.subjectFor m.recipient m.topic) ≠ 0 :=
    fun none => subscriberCount_eq_zero_iff.mp none s heard
  simp only [openRequest, alive, if_neg some, deliver, ordinary, Bool.false_eq_true, if_false]
  change (if (b.takers (b.subjectFor m.recipient m.topic)).length = 0 then _ else _ : Except Error Request × Bus).1 = _
  split <;> rfl

theorem openRequest_undelivered (heard : b.Hears (b.subjectFor m.recipient m.topic) s)
    (full : ∀ s, b.Hears (b.subjectFor m.recipient m.topic) s → b.capacity ≤ s.queue.length) (timeout : Nat)
    (inboxId : String) : (b.openRequest ts c now m timeout inboxId).1 =
      .error (.communication s!"request to {b.subjectFor m.recipient m.topic} was not delivered") := by
  rw [openRequest_taken alive ordinary heard, takers_eq_nil_iff.mpr full]
  rfl

theorem openRequest_awaits (heard : b.Hears (b.subjectFor m.recipient m.topic) s) (room : s.queue.length < b.capacity)
    (timeout : Nat) (inboxId : String) :
    ∃ r, (b.openRequest ts c now m timeout inboxId).1 = .ok r ∧ (Awaited.of b c now m timeout inboxId).By r := by
  have some : (b.takers (b.subjectFor m.recipient m.topic)).length ≠ 0 := by
    intro none
    have full := takers_eq_nil_iff.mp (List.length_eq_zero_iff.mp none) s heard
    omega
  have last := Context.effectiveTimeout_eq alive timeout
  rw [openRequest_taken alive ordinary heard, if_neg some]
  refine ⟨_, rfl, rfl, rfl, last, ?_, ⟨rfl, rfl⟩, fun d deadline => ⟨?_, ?_⟩⟩
  · have left : c.latest now timeout - now = c.effectiveTimeout now timeout := by
      rw [← last]
      exact Nat.add_sub_cancel_left ..
    exact congrArg wholeMillis left.symm
  · have own : c.deadline = Option.some d := deadline
    simp only [Awaited.of, Context.latest, own]
    exact Nat.min_le_right _ _
  · have own : c.deadline = Option.some d := deadline
    simp only [Bound.make, Context.remaining, own, Option.map_some, Option.getD_some, Awaited.of]

end

/-! ## Inboxes -/

/-- The inbox stays, with the message that it has if it has one. -/
def Retains (inbox : String) (b b' : Bus) : Prop :=
  ∀ x, b.inboxes.get? inbox = some x → ∃ y, b'.inboxes.get? inbox = some y ∧ ∀ m, x = some m → y = some m

theorem retains_of_same (same : b'.inboxes.get? inbox = b.inboxes.get? inbox) : Retains inbox b b' :=
  fun x there => ⟨x, same.trans there, fun _ own => own⟩

theorem Retains.trans (first : Retains inbox b b') (second : Retains inbox b' b'') : Retains inbox b b'' := by
  intro x there
  obtain ⟨y, there', kept⟩ := first x there
  obtain ⟨z, there'', kept'⟩ := second y there'
  exact ⟨z, there'', fun m own => kept' m (kept m own)⟩

theorem deliver_retains (b : Bus) (subject : String) (m : Message) (inbox : String) :
    Retains inbox b (b.deliver subject m).2 := by
  cases own : isInbox subject with
  | false =>
    have same := deliver_same own b m
    exact retains_of_same (congrArg (·.get? inbox) same.inboxes)
  | true =>
    have posts := (deliver_posts own b m).1
    generalize (b.deliver subject m).2 = b' at posts
    cases posts with
    | lost _ inboxes => exact retains_of_same (congrArg (·.get? inbox) inboxes)
    | filled waits inboxes =>
      intro x there
      rw [inboxes, Table.get?_insert]
      split
      · rename_i same
        subst same
        refine ⟨_, rfl, fun m own => ?_⟩
        rw [own, waits] at there
        cases there
      · exact ⟨x, there, fun _ own => own⟩

theorem publish_retains (b : Bus) (ts : Tokens) (c : Context) (now : Moment) (m : Message) (inbox : String) :
    Retains inbox b (b.publish ts c now m).2 := by
  unfold publish
  split
  · exact retains_of_same rfl
  · exact deliver_retains b _ m inbox

theorem reply_retains (b : Bus) (ts : Tokens) (c : Context) (now : Moment) (received answer : Message)
    (inbox : String) : Retains inbox b (b.reply ts c now received answer).2 := by
  unfold reply
  split
  · exact retains_of_same rfl
  · split
    · exact retains_of_same rfl
    · have delivered := deliver_retains b ‹String› answer inbox
      dsimp only
      split <;> exact delivered

theorem openRequest_retains (other : inbox ≠ inboxPrefix ++ inboxId) (b : Bus) (ts : Tokens) (c : Context)
    (now : Moment) (m : Message) (timeout : Nat) : Retains inbox b (b.openRequest ts c now m timeout inboxId).2 := by
  have opened : Retains inbox b { b with inboxes := b.inboxes.insert (inboxPrefix ++ inboxId) none } :=
    retains_of_same (Table.get?_insert_of_ne other none b.inboxes)
  unfold openRequest
  split
  · exact retains_of_same rfl
  · dsimp only
    split
    · exact retains_of_same rfl
    · have sent := opened.trans (deliver_retains _ (b.subjectFor m.recipient m.topic)
        { m with replyTo := some (inboxPrefix ++ inboxId) } inbox)
      split
      · exact sent.trans (retains_of_same (Table.get?_erase_of_ne other _))
      · exact sent

theorem openRequest_inbox (done : (b.openRequest ts c now m timeout inboxId).1 = .ok r) :
    r.inbox = inboxPrefix ++ inboxId := by
  unfold openRequest at done
  split at done
  · cases done
  · dsimp only at done
    split at done
    · cases done
    · split at done
      · cases done
      · cases done
        rfl

theorem openRequest_opened (done : (b.openRequest ts c now m timeout inboxId).1 = .ok r)
    (ordinary : isInbox (b.subjectFor m.recipient m.topic) = false) :
    (b.openRequest ts c now m timeout inboxId).2.inboxes.get? (inboxPrefix ++ inboxId) = some none := by
  have opens := openRequest_opens ordinary ts c now timeout inboxId
  rw [done] at opens
  generalize (b.openRequest ts c now m timeout inboxId).2 = b' at opens
  cases opens with
  | sent _ inboxes =>
    rw [inboxes]
    exact Table.get?_insert_self _ _ _

end Bus
end Handover
