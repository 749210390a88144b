import Handover.Proofs.Exchange.Accounts

/-!
# Who gets a message

A message goes to the subscriptions on its subject, and the subject is all that is left of the agent and the topic. It
comes to those for whom the two make the same text, which with as many dots in the names are the agent and the topic
themselves; and it comes to all of them who listen and have room, unless the subject looks like an inbox.
-/

namespace Handover

namespace Message

def dots (name : String) : Nat := name.toList.count '.'

/-- A text splits at one dot in one way only, if it is known how many come before. -/
theorem split_at_dot {agent agent' topic topic' : List Char} (same : agent ++ '.' :: topic = agent' ++ '.' :: topic')
    (dots : agent.count '.' = agent'.count '.') : agent = agent' ∧ topic = topic' := by
  induction agent generalizing agent' with
  | nil =>
    cases agent' with
    | nil =>
      cases same
      exact ⟨rfl, rfl⟩
    | cons c rest =>
      obtain ⟨rfl, _⟩ := List.cons_eq_cons.mp same
      rw [List.count_cons_self] at dots
      cases dots
  | cons c rest ih =>
    cases agent' with
    | nil =>
      obtain ⟨rfl, _⟩ := List.cons_eq_cons.mp same
      rw [List.count_cons_self] at dots
      cases dots
    | cons c' rest' =>
      obtain ⟨rfl, rest_same⟩ := List.cons_eq_cons.mp same
      rw [List.count_cons, List.count_cons, Nat.add_right_cancel_iff] at dots
      obtain ⟨rfl, rfl⟩ := ih rest_same dots
      exact ⟨rfl, rfl⟩

theorem subject_eq_iff {lead agent agent' topic topic' : String} :
    subject lead agent topic = subject lead agent' topic' ↔ agent ++ "." ++ topic = agent' ++ "." ++ topic' := by
  rw [subject, subject, ← String.toList_inj, ← String.toList_inj]
  simp only [String.toList_append, List.append_assoc, List.append_cancel_left_eq]

theorem address_unique {agent agent' topic topic' : String} (same : agent ++ "." ++ topic = agent' ++ "." ++ topic')
    (alike : dots agent = dots agent') : agent = agent' ∧ topic = topic' := by
  have chars : agent.toList ++ '.' :: topic.toList = agent'.toList ++ '.' :: topic'.toList := by
    have texts := congrArg String.toList same
    simp only [String.toList_append, List.append_assoc] at texts
    exact texts
  obtain ⟨agents, topics⟩ := split_at_dot chars alike
  exact ⟨String.toList_inj.mp agents, String.toList_inj.mp topics⟩

end Message

namespace Traffic

/-- The message that somebody wants to send to an agent. -/
def message? : Traffic → Option Message
  | publish _ _ m | request _ _ m _ _ => some m
  | _ => none

theorem message?_sent? {t : Traffic} {m m' : Message} {lead subject : String} (meant : t.message? = some m)
    (sent : t.sent? lead = some (subject, m')) :
    subject = Message.subject lead m.recipient m.topic ∧ m'.payload = m.payload := by
  cases t with
  | publish | request =>
    cases meant
    dsimp only [sent?] at sent
    split at sent
    · cases sent
      exact ⟨rfl, rfl⟩
    · cases sent
  | _ => cases meant

end Traffic

namespace Exchange
variable {e : Exchange} {config : BusConfig} {traffic : List Traffic} {id n : Nat}

/-- Whom each subscription of a run was made for, in the order of the ids. -/
def addresses (traffic : List Traffic) : List (String × String) := traffic.filterMap Traffic.address?

theorem run_settings (sound : e.bus.Sound) (traffic : List Traffic) :
    (e.run traffic).bus.Sound ∧ (e.run traffic).bus.capacity = e.bus.capacity ∧
      (e.run traffic).bus.subjectPrefix = e.bus.subjectPrefix := by
  induction traffic generalizing e with
  | nil => exact ⟨sound, rfl, rfl⟩
  | cons t rest ih =>
    have stirs := step_stirs sound t
    obtain ⟨sound', capacity, lead⟩ := ih (stirs.sound sound)
    exact ⟨sound', capacity.trans stirs.settings.1, lead.trans stirs.settings.2⟩

theorem run_subjects (sound : e.bus.Sound) (traffic : List Traffic) :
    (e.run traffic).bus.subscriptions.map Subscription.subject = e.bus.subscriptions.map Subscription.subject ++
      (addresses traffic).map fun address => e.bus.subjectFor address.1 address.2 := by
  induction traffic generalizing e with
  | nil => exact (List.append_nil _).symm
  | cons t rest ih =>
    have stirs := step_stirs sound t
    have same : (fun address : String × String => (e.step t).bus.subjectFor address.1 address.2) =
        fun address => e.bus.subjectFor address.1 address.2 := by
      funext address
      rw [Bus.subjectFor, stirs.settings.2, Bus.subjectFor]
    refine (ih (stirs.sound sound)).trans ?_
    rw [stirs.subjects, List.append_assoc, same, addresses, addresses, List.filterMap_cons]
    congr 1
    cases t.address? <;> rfl

theorem opened_sound (config : BusConfig) : (opened config).bus.Sound := (Bus.ofConfig_regular config).sound

/-- Each subscription has the subject of those whom it was made for. -/
theorem subject_at (config : BusConfig) (traffic : List Traffic) (k : Nat) :
    ((opened config).run traffic).bus.subscriptions[k]?.map Subscription.subject =
      (addresses traffic)[k]?.map fun address => Message.subject config.subjectPrefix address.1 address.2 := by
  have subjects := run_subjects (opened_sound config) traffic
  rw [← List.getElem?_map, subjects, ← List.getElem?_map]
  rfl

/-- A message comes to a subscription only if the agent and the topic whom this was made for make the same text as
those that the message is for; then they are the same, if there are as many dots in the agents' names. -/
theorem handed_by_address (config : BusConfig) (traffic : List Traffic) {p : Passing} {m m' : Message} {id : Nat}
    (there : p ∈ (opened config).history traffic) (meant : p.event.message? = some m)
    (accepted : p.accepted? id = some m') :
    ∃ k agent topic, id = k + 1 ∧ (addresses traffic)[k]? = some (agent, topic) ∧
      agent ++ "." ++ topic = m.recipient ++ "." ++ m.topic ∧
      (Message.dots agent = Message.dots m.recipient → agent = m.recipient ∧ topic = m.topic) := by
  obtain ⟨earlier, t, later, rfl, rfl⟩ := history_split there
  obtain ⟨sound, _, lead⟩ := run_settings (opened_sound config) earlier
  obtain ⟨s, known, sent⟩ := Passing.sentTo?_some ((step_proper sound t).accepted?_sentTo? accepted)
  obtain ⟨on, rfl⟩ := Bus.subscription?_mem known
  obtain ⟨k, here⟩ := List.getElem?_of_mem on
  have subject := subject_at config earlier k
  rw [here, Option.map_some] at subject
  obtain ⟨⟨agent, topic⟩, made, same⟩ := Option.map_eq_some_iff.mp subject.symm
  have same := same.trans (Traffic.message?_sent? meant sent).1
  rw [show (Passing.mk _ t _).before.subjectPrefix = config.subjectPrefix from lead, Message.subject_eq_iff] at same
  refine ⟨k, agent, topic, sound.id_at here, ?_, same, Message.address_unique same⟩
  rw [addresses, List.filterMap_append]
  exact (List.getElem?_append_left (List.getElem?_eq_some_iff.mp made).1).trans made

/-- A message to a subject that does not look like an inbox comes to all who subscribed for the agent and the topic,
listen and have room, and a request with such a subscription is not refused. -/
theorem subscribers_reached (config : Config) (traffic : List Traffic) {m : Message} {k : Nat} {ts : Tokens}
    {ctx : Context} {now : Moment}
    (ordinary : Bus.isInbox (Message.subject config.bus.subjectPrefix m.recipient m.topic) = false)
    (made : (addresses traffic)[k]? = some (m.recipient, m.topic))
    (running : ((opened config.bus).run traffic).bus.isListening (k + 1) = true)
    (room : (((opened config.bus).run traffic).bus.queueOf (k + 1)).length < max 1 config.bus.channelCapacity) :
    (∀ bus', ((opened config.bus).run traffic).bus.publish ts ctx now m = (.ok (), bus') →
      bus'.queueOf (k + 1) = ((opened config.bus).run traffic).bus.queueOf (k + 1) ++ [m]) ∧
    ∀ timeout inboxId err bus',
      ((opened config.bus).run traffic).bus.openRequest ts ctx now m timeout inboxId = (.error err, bus') →
        ctx.check ts now = .error err := by
  obtain ⟨sound, capacity, lead⟩ := run_settings (opened_sound config.bus) traffic
  have subject := subject_at config.bus traffic k
  generalize ((opened config.bus).run traffic).bus = bus at *
  rw [made, Option.map_some] at subject
  obtain ⟨s, here, on⟩ := Option.map_eq_some_iff.mp subject
  have there := List.mem_of_getElem? here
  have own := sound.id_at here
  have takes : s.takes bus.capacity (bus.subjectFor m.recipient m.topic) = true := by
    refine Subscription.takes_iff.mpr ⟨by rw [on, Bus.subjectFor, lead]; rfl, ?_, ?_⟩
    · rw [← sound.isListening there, own, running]
    · rw [← sound.queueOf there, own, capacity]
      exact room
  have plain : Bus.isInbox (bus.subjectFor m.recipient m.topic) = false := by
    rw [Bus.subjectFor, lead]
    exact ordinary
  constructor
  · intro bus' published
    cases alive : ctx.check ts now with
    | error err => cases (Bus.publish_barred alive).symm.trans published
    | ok u =>
      cases (Bus.publish_alive alive).symm.trans published
      have known := sound.subscription? there
      have found := (Bus.deliver_hands sound plain m).subscription? s.id
      rw [known, Option.map_some, if_pos takes] at found
      rw [← own, Bus.queueOf_found found, Bus.queueOf_found known, Subscription.push]
  · intro timeout inboxId err bus' refused
    cases alive : ctx.check ts now with
    | error err' =>
      rw [Bus.openRequest_barred alive] at refused
      cases refused
      rfl
    | ok u =>
      obtain ⟨r, opened⟩ := Bus.openRequest_ok sound alive plain there takes timeout inboxId
      rw [refused] at opened
      cases opened

end Exchange

namespace Sample

def note (recipient topic : String) : Message where
  id := "1"
  sender := "asker"
  recipient
  topic
  payload := .null
  sentAt := ⟨0, 0⟩

/-- Two addresses that make the same text. -/
def homonyms : List Traffic :=
  [.subscribe "a" "b.c", .subscribe "a.b" "c", .publish { token := 0 } { time := ⟨1, 0⟩ } (note "a.b" "c")]

/-- A configuration that is accepted, and whose subjects all look like inboxes. -/
def boxed : Config := { bus := { subjectPrefix := "_INBOX." } }

end Sample

namespace Exchange

theorem handed_by_address_of_homonyms :
    ∃ p ∈ (opened {}).history Sample.homonyms, p.event.message? = some (Sample.note "a.b" "c") ∧
      p.accepted? 2 = some (Sample.note "a.b" "c") ∧
      ∃ k agent topic, 2 = k + 1 ∧ (addresses Sample.homonyms)[k]? = some (agent, topic) ∧
        agent ++ "." ++ topic = "a.b" ++ "." ++ "c" ∧
        (Message.dots agent = Message.dots "a.b" → agent = "a.b" ∧ topic = "c") := by
  obtain ⟨p, there, meant, accepted⟩ : ∃ p ∈ (opened {}).history Sample.homonyms,
      p.event.message? = some (Sample.note "a.b" "c") ∧ p.accepted? 2 = some (Sample.note "a.b" "c") :=
    ⟨_, .tail _ (.tail _ (.head _)), rfl, rfl⟩
  exact ⟨p, there, meant, accepted, handed_by_address {} Sample.homonyms there meant accepted⟩

/-- A message comes to a subscription for another agent and another topic. -/
theorem homonyms_collide :
    ¬ ∀ p ∈ (opened {}).history Sample.homonyms, ∀ m m' k, p.event.message? = some m → p.accepted? (k + 1) = some m' →
      (addresses Sample.homonyms)[k]? = some (m.recipient, m.topic) := by
  intro isolated
  obtain ⟨p, there, meant, accepted⟩ : ∃ p ∈ (opened {}).history Sample.homonyms,
      p.event.message? = some (Sample.note "a.b" "c") ∧ p.accepted? 1 = some (Sample.note "a.b" "c") :=
    ⟨_, .tail _ (.tail _ (.head _)), rfl, rfl⟩
  exact absurd (isolated p there _ _ 0 meant accepted) (by decide)

theorem subscribers_reached_of_note :
    (addresses [.subscribe "a" "b"])[0]? = some ("a", "b") ∧
      (∀ bus', ((opened {}).run [.subscribe "a" "b"]).bus.publish {} { token := 0 } 0 (Sample.note "a" "b") =
        (.ok (), bus') → bus'.queueOf 1 = [Sample.note "a" "b"]) ∧
      ∀ timeout inboxId err bus',
        ((opened {}).run [.subscribe "a" "b"]).bus.openRequest {} { token := 0 } 0 (Sample.note "a" "b") timeout
          inboxId = (.error err, bus') → Context.check {} { token := 0 } 0 = .error err :=
  ⟨rfl, subscribers_reached {} [.subscribe "a" "b"] (m := Sample.note "a" "b") (k := 0) rfl rfl rfl (by decide)⟩

/-- Under an accepted configuration a subscriber who listens and has room gets nothing, and a request is refused. -/
theorem boxed_subscriber_missed :
    Sample.boxed.validate = .ok () ∧
      ((opened Sample.boxed.bus).run [.subscribe "a" "b"]).bus.isListening 1 = true ∧
      (((opened Sample.boxed.bus).run [.subscribe "a" "b"]).bus.publish {} { token := 0 } 0 (Sample.note "a" "b")).1 =
        .ok () ∧
      (((opened Sample.boxed.bus).run [.subscribe "a" "b"]).bus.publish {} { token := 0 } 0
        (Sample.note "a" "b")).2.queueOf 1 = [] ∧
      (((opened Sample.boxed.bus).run [.subscribe "a" "b"]).bus.openRequest {} { token := 0 } 0 (Sample.note "a" "b")
        1000 "first").1 = .error (.communication "request to _INBOX.a.b was not delivered") :=
  ⟨rfl, rfl, rfl, rfl, rfl⟩

end Exchange
end Handover
