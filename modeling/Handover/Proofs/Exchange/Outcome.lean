import Mathlib.Data.List.Induction
import Handover.Proofs.Exchange.Clock
import Handover.Proofs.Exchange.Correlation

/-!
# What becomes of a request

A request fails at once, without anything being published, if its context has ended or nobody listens. Otherwise it
waits, and what comes first decides: `request_decided`.
-/

namespace Handover

namespace Inquiry

def isWaiting (q : Inquiry) : Bool :=
  match q.state with
  | .waits _ => true
  | .returned _ => false

end Inquiry

namespace Clocked

/-- What a request that waits can rely on. -/
structure Pending (k : Clocked) (i : Nat) (w : Awaited) : Prop where
  waits : ∃ q r, k.exchange.inquiries[i]? = some q ∧ q.state = .waits r ∧ w.By r
  early : k.moment ≤ w.last
  cancels : ∀ above, k.tokens.Below above w.token → w.token < k.tokens.list.length →
    (k.act (.cancel above)).Comes w (.error .cancelled)
  /-- The first reply to its inbox comes to it. -/
  replies : ∀ ctx around received id payload, ctx.check k.tokens k.moment = .ok () → received.replyTo = some w.inbox →
    (∀ m, ¬ k.Comes w (.ok m)) →
    (k.act (.traffic (.reply ctx around received id payload))).Comes w (.ok (received.replyWith id around.time payload))
  /-- Once something has come, no time passes until it returns that. -/
  returns : ∀ result, k.Comes w result → (∀ till, k.act (.pass till) = k) ∧
    ∀ around, ∃ result, k.Comes w result ∧ (k.act (.traffic (.look i around))).Returned i result
  /-- It takes nothing but time, and that those who can go on do so. -/
  ends : ∃ more result, (∀ x ∈ more, (∃ j around, x = .traffic (.look j around)) ∨ x = .pass w.last) ∧
    (k.after more).Returned i result

/-- How it stands with a request after all this. What it has returned had come, and whatever else had come by then came
at the same moment. -/
inductive Decided (k : Clocked) (i : Nat) (w : Awaited) (ticks : List Tick) : Prop where
  | pending (prompt : k.Prompt w ticks) (pending : (k.after ticks).Pending i w) : Decided k i w ticks
  | returned (parts : ticks = earlier ++ .traffic (.look i around) :: later) (prompt : k.Prompt w earlier)
      (early : (k.after earlier).moment ≤ w.last) (comes : (k.after earlier).Comes w result)
      (returned : (k.after ticks).Returned i result) : Decided k i w ticks

variable {k : Clocked} {w : Awaited} {i j : Nat} {result : Except Error Message} {x : Tick} {inboxId : String}
  {ticks : List Tick} {ctx : Context} {around : Surroundings} {m : Message} {timeout : Nat}

/-! ## What has returned -/

theorem look_returned (returned : k.Returned i result) (j : Nat) (around : Surroundings) :
    ({ k with exchange := k.exchange.look j around } : Clocked).Returned i result := by
  obtain ⟨q, here, state⟩ := returned
  rcases look_cases k.exchange j around with ⟨q', r, result', there, state', _, looked⟩ | ⟨looked, _⟩
  · have away : j ≠ i := by
      rintro rfl
      cases here.symm.trans there
      exact nomatch state.symm.trans state'
    refine ⟨q, ?_, state⟩
    rw [looked]
    exact (List.getElem?_set_ne away).trans here
  · rw [looked]
    exact ⟨q, here, state⟩

theorem act_returned (returned : k.Returned i result) (x : Tick) : (k.act x).Returned i result := by
  obtain ⟨q, here, state⟩ := returned
  cases x with
  | pass till =>
    unfold act
    dsimp only
    split <;> exact ⟨q, here, state⟩
  | cancel token => exact ⟨q, here, state⟩
  | token parent => cases parent <;> exact ⟨q, here, state⟩
  | traffic t =>
    cases t with
    | look j around => exact look_returned ⟨q, here, state⟩ j _
    | request ctx around m timeout inboxId =>
      exact ⟨q, (List.getElem?_append_left (List.getElem?_eq_some_iff.mp here).1).trans here, state⟩
    | subscribe | receive =>
      refine ⟨q, ?_, state⟩
      unfold act Traffic.doneAt Exchange.step
      dsimp only
      split <;> exact here
    | _ => exact ⟨q, here, state⟩

/-! ## The end of a wait -/

theorem foldr_min_mem (l : List Moment) (till : Moment) : l.foldr min till = till ∨ l.foldr min till ∈ l := by
  induction l with
  | nil => exact .inl rfl
  | cons a rest ih =>
    rw [List.foldr_cons]
    rcases Nat.le_total a (rest.foldr min till) with first | later
    · rw [Nat.min_eq_left first]
      exact .inr (.head _)
    · rw [Nat.min_eq_right later]
      exact ih.imp_right (.tail _)

theorem isDue_iff : k.isDue = true ↔ ∃ (j : Nat) (q : Inquiry) (r : Request), k.exchange.inquiries[j]? = some q ∧
    q.state = .waits r ∧ (k.exchange.bus.pollRequest k.tokens k.moment r).isSome = true := by
  constructor
  · intro due
    obtain ⟨q, there, polled⟩ := List.any_eq_true.mp due
    obtain ⟨j, here⟩ := List.getElem?_of_mem there
    split at polled
    · rename_i r state
      exact ⟨j, q, r, here, state, polled⟩
    · cases polled
  · rintro ⟨j, q, r, here, state, polled⟩
    refine List.any_eq_true.mpr ⟨q, List.mem_of_getElem? here, ?_⟩
    rw [state]
    exact polled

/-- When time has passed as far as it can, some request can go on. -/
theorem pass_due (awaits : k.Awaits i w) : (k.act (.pass w.last)).isDue = true := by
  unfold act
  dsimp only
  split
  · assumption
  · obtain ⟨q, r, here, state, own⟩ := awaits.there
    have rings : w.last ∈ k.alarms :=
      List.mem_filterMap.mpr ⟨q, List.mem_of_getElem? here, by rw [state, ← Bus.alarm_by own]⟩
    have first : k.alarms.foldr min w.last ∈ k.alarms := by
      rcases foldr_min_mem k.alarms w.last with last | first
      · rwa [last]
      · exact first
    obtain ⟨q', there, alarm⟩ := List.mem_filterMap.mp first
    obtain ⟨j, there'⟩ := List.getElem?_of_mem there
    split at alarm
    · rename_i r' state'
      refine isDue_iff.mpr ⟨j, q', r', there', state', Bus.alarm_polled ?_⟩
      rw [Option.some.inj alarm]
      exact Nat.le_max_right _ _
    · cases alarm

theorem look_waiting {q : Inquiry} {r : Request} (there : k.exchange.inquiries[j]? = some q) (state : q.state = .waits r)
    (polled : (k.exchange.bus.pollRequest k.tokens k.moment r).isSome = true) (around : Surroundings) :
    (k.act (.traffic (.look j around))).exchange.inquiries.countP Inquiry.isWaiting <
      k.exchange.inquiries.countP Inquiry.isWaiting := by
  change (k.exchange.look j _).inquiries.countP _ < _
  obtain ⟨inside, own⟩ := List.getElem?_eq_some_iff.mp there
  have waiting : q.isWaiting = true := by rw [Inquiry.isWaiting, state]
  rcases look_cases k.exchange j { around with tokens := k.tokens, moment := k.moment } with
    ⟨q', r', result, there', _, _, looked⟩ | ⟨_, none⟩
  · have some : 0 < k.exchange.inquiries.countP Inquiry.isWaiting :=
      List.countP_pos_iff.mpr ⟨q, List.mem_of_getElem? there, waiting⟩
    have done : ({ q' with state := .returned result } : Inquiry).isWaiting = false := rfl
    rw [looked, List.countP_set inside, own, if_pos waiting, done]
    exact Nat.sub_lt some Nat.one_pos
  · rw [none q r there state] at polled
    cases polled

/-- Each look at a request that can go on leaves one less that waits. -/
theorem awaits_ends (awaits : k.Awaits i w) :
    ∃ more result, (∀ x ∈ more, (∃ j around, x = .traffic (.look j around)) ∨ x = .pass w.last) ∧
      (k.after more).Returned i result := by
  -- On how many wait: time passes to the next alarm, and whoever it rings for looks.
  induction waiting : k.exchange.inquiries.countP Inquiry.isWaiting using Nat.strongRecOn generalizing k with
  | _ n ih =>
    subst waiting
    obtain ⟨awaits', _⟩ := pass_awaits awaits w.last
    obtain ⟨j, q, r, there, state, polled⟩ := isDue_iff.mp (pass_due awaits)
    have fewer := look_waiting there state polled { time := ⟨0, 0⟩ }
    have same : (k.act (.pass w.last)).exchange = k.exchange := by
      unfold act
      dsimp only
      split <;> rfl
    rw [same] at fewer
    rcases act_awaits awaits' (.traffic (.look j { time := ⟨0, 0⟩ })) nofun with
      ⟨awaits'', _⟩ | ⟨around, result, own, comes, returned⟩
    · obtain ⟨more, result, kinds, returned⟩ := ih _ fewer awaits'' rfl
      refine ⟨.pass w.last :: .traffic (.look j { time := ⟨0, 0⟩ }) :: more, result, fun x there => ?_, returned⟩
      rcases List.mem_cons.mp there with rfl | there
      · exact .inr rfl
      · rcases List.mem_cons.mp there with rfl | there
        · exact .inl ⟨j, _, rfl⟩
        · exact kinds x there
    · refine ⟨[.pass w.last, .traffic (.look j { time := ⟨0, 0⟩ })], result, fun x there => ?_, returned⟩
      rcases List.mem_cons.mp there with rfl | there
      · exact .inr rfl
      · exact .inl ⟨j, _, List.mem_singleton.mp there⟩

/-! ## Everything after the request -/

theorem awaits_pending (awaits : k.Awaits i w) (own : Bus.isInbox w.inbox = true) : k.Pending i w where
  waits := awaits.there
  early := awaits.early
  cancels := fun above below known => .cancelled (Tokens.cancel_reaches below known)
  replies := by
    intro ctx around received id payload alive addressed first
    obtain ⟨x, found⟩ := awaits.inbox
    have waits : k.exchange.bus.inboxes.get? w.inbox = some none := by
      cases x with
      | none => exact found
      | some m => exact absurd (.replied found) (first m)
    refine .replied ?_
    change (k.exchange.bus.reply k.tokens ctx k.moment received _).2.inboxes.get? w.inbox = _
    rw [Bus.reply_delivers alive addressed]
    obtain ⟨posts, _⟩ := Bus.deliver_posts own k.exchange.bus (received.replyWith id around.time payload)
    generalize (k.exchange.bus.deliver w.inbox (received.replyWith id around.time payload)).2 = b' at posts
    cases posts with
    | filled _ inboxes =>
      rw [inboxes]
      exact Table.get?_insert_self _ _ _
    | lost gone => exact absurd waits gone
  returns := by
    intro result comes
    refine ⟨fun till => (pass_awaits awaits till).2 result comes, fun around => ?_⟩
    rcases look_own awaits around with found | ⟨_, none⟩
    · exact found
    · exact absurd comes (none result)
  ends := awaits_ends awaits

theorem prompt_append (prompt : k.Prompt w ticks)
    (stays : ∀ result, (k.after ticks).Comes w result →
      ((k.after ticks).act x).moment = (k.after ticks).moment ∧ ∃ result, ((k.after ticks).act x).Comes w result) :
    k.Prompt w (ticks ++ [x]) := by
  intro earlier before result comes
  rcases List.prefix_concat_iff.mp before with rfl | before
  · exact ⟨rfl, result, comes⟩
  · obtain ⟨moment, result', comes'⟩ := prompt earlier before result comes
    obtain ⟨moment', comes''⟩ := stays result' comes'
    rw [after_append]
    exact ⟨moment'.trans moment, comes''⟩

theorem after_awaits (awaits : k.Awaits i w)
    (others : ∀ x ∈ ticks, ∀ inboxId, x.inboxId? = some inboxId → w.inbox ≠ Bus.inboxPrefix ++ inboxId) :
    ((k.after ticks).Awaits i w ∧ k.Prompt w ticks) ∨ ∃ earlier around later result,
      ticks = earlier ++ .traffic (.look i around) :: later ∧ (k.after earlier).Awaits i w ∧ k.Prompt w earlier ∧
        (k.after earlier).Comes w result ∧ (k.after ticks).Returned i result := by
  -- From the end, as what the last tick does depends on how things stand before it.
  induction ticks using List.reverseRecOn with
  | nil =>
    refine .inl ⟨awaits, fun earlier before result comes => ?_⟩
    obtain rfl := List.prefix_nil.mp before
    exact ⟨rfl, result, comes⟩
  | append_singleton ticks x ih =>
    rw [after_append]
    rcases ih fun x there => others x (List.mem_append_left _ there) with
      ⟨awaits', prompt⟩ | ⟨earlier, around, later, result, rfl, awaits', prompt, comes, returned⟩
    · rcases act_awaits awaits' x (others x (by simp)) with ⟨awaits'', stays⟩ | ⟨around, result, rfl, comes, returned⟩
      · exact .inl ⟨awaits'', prompt_append prompt stays⟩
      · exact .inr ⟨ticks, around, [], result, rfl, awaits', prompt, comes, returned⟩
    · refine .inr ⟨earlier, around, later ++ [x], result, ?_, awaits', prompt, comes, act_returned returned x⟩
      rw [List.append_assoc, List.cons_append]

theorem after_decided (awaits : k.Awaits i w) (own : Bus.isInbox w.inbox = true)
    (others : ∀ x ∈ ticks, ∀ inboxId, x.inboxId? = some inboxId → w.inbox ≠ Bus.inboxPrefix ++ inboxId) :
    k.Decided i w ticks := by
  rcases after_awaits awaits others with
    ⟨awaits', prompt⟩ | ⟨earlier, around, later, result, parts, awaits', prompt, comes, returned⟩
  · exact .pending prompt (awaits_pending awaits' own)
  · exact .returned parts prompt awaits'.early comes returned

/-! ## The request -/

/-- No request that waits has this inbox. -/
def Unused (k : Clocked) (inboxId : String) : Prop :=
  ∀ q ∈ k.exchange.inquiries, ∀ r, q.state = .waits r → r.inbox ≠ Bus.inboxPrefix ++ inboxId

theorem ask_refused {e : Exchange} {err : Error}
    (refused : (e.bus.openRequest around.tokens ctx around.moment m timeout inboxId).1 = .error err) :
    (e.ask ctx around m timeout inboxId).inquiries =
      e.inquiries ++ [{ message := m, inboxId, state := .returned (.error err) }] := by
  unfold Exchange.ask
  generalize e.bus.openRequest around.tokens ctx around.moment m timeout inboxId = opened at refused
  obtain ⟨_, bus⟩ := opened
  cases refused
  rfl

theorem ask_sent {e : Exchange} {r : Request}
    (sent : (e.bus.openRequest around.tokens ctx around.moment m timeout inboxId).1 = .ok r) :
    (e.ask ctx around m timeout inboxId).inquiries =
      e.inquiries ++ [{ message := m, inboxId, state := .waits r }] := by
  unfold Exchange.ask
  generalize e.bus.openRequest around.tokens ctx around.moment m timeout inboxId = opened at sent
  obtain ⟨_, bus⟩ := opened
  cases sent
  rfl

theorem request_returned {e : Error} (around : Surroundings)
    (refused : (k.exchange.bus.openRequest k.tokens ctx k.moment m timeout inboxId).1 = .error e) :
    (k.act (.traffic (.request ctx around m timeout inboxId))).Returned k.exchange.inquiries.length (.error e) := by
  refine ⟨{ message := m, inboxId, state := .returned (.error e) }, ?_, rfl⟩
  change (k.exchange.ask ctx { around with tokens := k.tokens, moment := k.moment } m timeout inboxId).inquiries[_]? = _
  rw [ask_refused refused]
  exact List.getElem?_concat_length

theorem request_awaits {s : Subscription} (around : Surroundings) (alive : ctx.check k.tokens k.moment = .ok ())
    (ordinary : Bus.isInbox (k.exchange.bus.subjectFor m.recipient m.topic) = false)
    (heard : k.exchange.bus.Hears (k.exchange.bus.subjectFor m.recipient m.topic) s)
    (room : s.queue.length < k.exchange.bus.capacity) (unused : k.Unused inboxId) (timeout : Nat) :
    (k.act (.traffic (.request ctx around m timeout inboxId))).Awaits k.exchange.inquiries.length
      (.of k.exchange.bus ctx k.moment m timeout inboxId) := by
  obtain ⟨r, opened, own⟩ := Bus.openRequest_awaits alive ordinary heard room timeout inboxId
  have filed : (k.act (.traffic (.request ctx around m timeout inboxId))).exchange.inquiries =
      k.exchange.inquiries ++ [{ message := m, inboxId, state := .waits r }] :=
    ask_sent opened
  refine ⟨⟨{ message := m, inboxId, state := .waits r }, r, ?_, rfl, own⟩,
    ⟨none, Bus.openRequest_opened opened ordinary⟩, fun j q' r' away there state => ?_, ?_⟩
  · rw [filed]
    exact List.getElem?_concat_length
  · rw [filed] at there
    have place := (List.getElem?_eq_some_iff.mp there).1
    rw [List.length_append, List.length_singleton] at place
    have earlier : j < k.exchange.inquiries.length := by omega
    rw [List.getElem?_append_left earlier] at there
    exact unused q' (List.mem_of_getElem? there) r' state
  · change k.moment ≤ ctx.latest k.moment timeout
    rw [← Context.effectiveTimeout_eq alive]
    exact Nat.le_add_right _ _

/-- The first of a reply, the cancellation of the context and the last moment of the wait decides what a request returns,
and it returns at that moment. -/
theorem request_decided (k : Clocked) (ctx : Context) (around : Surroundings) (m : Message) (timeout : Nat)
    (inboxId : String) (ordinary : Bus.isInbox (k.exchange.bus.subjectFor m.recipient m.topic) = false)
    (unused : k.Unused inboxId) :
    let bus := k.exchange.bus
    let subject := bus.subjectFor m.recipient m.topic
    let i := k.exchange.inquiries.length
    let k' := k.act (.traffic (.request ctx around m timeout inboxId))
    k'.moment = k.moment ∧
    (∀ e, ctx.check k.tokens k.moment = .error e → k'.exchange.bus = bus ∧ k'.Returned i (.error e)) ∧
    (ctx.check k.tokens k.moment = .ok () →
      ((∀ s, ¬ bus.Hears subject s) → k'.exchange.bus = bus ∧
        k'.Returned i (.error (.communication s!"no responders on {subject}"))) ∧
      ∀ s, bus.Hears subject s →
        ((∀ s, bus.Hears subject s → bus.capacity ≤ s.queue.length) →
          k'.Returned i (.error (.communication s!"request to {subject} was not delivered"))) ∧
        (s.queue.length < bus.capacity → ∀ ticks, (∀ x ∈ ticks, x.inboxId? ≠ some inboxId) →
          k'.Decided i (.of bus ctx k.moment m timeout inboxId) ticks)) := by
  intro bus subject i k'
  refine ⟨rfl, fun e gone => ?_, fun alive => ⟨fun nobody => ?_, fun s heard => ⟨fun full => ?_, fun room ticks others => ?_⟩⟩⟩
  · have refused : bus.openRequest k.tokens ctx k.moment m timeout inboxId = (.error e, bus) :=
      Bus.openRequest_barred gone
    exact ⟨congrArg (·.2) refused, request_returned around (congrArg (·.1) refused)⟩
  · have refused := Bus.openRequest_unheard alive nobody timeout inboxId
    exact ⟨congrArg (·.2) refused, request_returned around (congrArg (·.1) refused)⟩
  · exact request_returned around (Bus.openRequest_undelivered alive ordinary heard full timeout inboxId)
  · refine after_decided (request_awaits around alive ordinary heard room unused timeout) (Bus.isInbox_inbox inboxId) ?_
    intro x there other drawn same
    obtain rfl := Bus.inbox_eq_iff.mp same
    exact others x there drawn

end Clocked

namespace Sample

/-- The elder listens, but answers nothing. The asker works below an operation that may be given up. -/
def asking : Clocked where
  exchange := (Exchange.opened {}).step (.subscribe "elder" "mood")
  tokens := ⟨[{}, { parent := some 0 }]⟩
  moment := 3

def patience : Context := { token := 1, deadline := some (millis 5) }

def patientlyAsked : Clocked :=
  asking.act (.traffic (.request patience { time := ⟨1, 0⟩ } question (millis 8) "first"))

def late : List Tick := [.pass (millis 9), .traffic (.look 0 { time := ⟨2, 0⟩ })]

def givenUp : List Tick := [.pass (millis 2), .cancel 0, .pass (millis 9), .traffic (.look 0 { time := ⟨2, 0⟩ })]

def answerAwaited : Awaited := .of asking.exchange.bus patience 3 question (millis 8) "first"

end Sample

namespace Clocked

/-- Whether the time or the operation above ends first. -/
theorem request_decided_of_patience :
    (Sample.patientlyAsked.Decided 0 Sample.answerAwaited Sample.late ∧
      (Sample.patientlyAsked.after Sample.late).Returned 0 (.error (.timeout "agents.elder.mood" 4)) ∧
      (Sample.patientlyAsked.after Sample.late).moment = millis 5) ∧
    Sample.patientlyAsked.Decided 0 Sample.answerAwaited Sample.givenUp ∧
      (Sample.patientlyAsked.after Sample.givenUp).Returned 0 (.error .cancelled) ∧
      (Sample.patientlyAsked.after Sample.givenUp).moment = millis 2 := by
  have ordinary : Bus.isInbox
      (Sample.asking.exchange.bus.subjectFor Sample.question.recipient Sample.question.topic) = false := rfl
  have unused : Sample.asking.Unused "first" := nofun
  have alive : Sample.patience.check Sample.asking.tokens Sample.asking.moment = .ok () := rfl
  have heard : Sample.asking.exchange.bus.Hears
      (Sample.asking.exchange.bus.subjectFor Sample.question.recipient Sample.question.topic)
      { id := 1, subject := "agents.elder.mood" } := ⟨⟨1, .head _, rfl⟩, rfl⟩
  have decided := (((request_decided Sample.asking Sample.patience { time := ⟨1, 0⟩ } Sample.question (millis 8) "first"
    ordinary unused).2.2 alive).2 _ heard).2 (by decide)
  exact ⟨⟨decided Sample.late (by simp [Sample.late, Tick.inboxId?, Traffic.inboxId?]), ⟨_, rfl, rfl⟩, rfl⟩,
    decided Sample.givenUp (by simp [Sample.givenUp, Tick.inboxId?, Traffic.inboxId?]), ⟨_, rfl, rfl⟩, rfl⟩

end Clocked
end Handover
