import Handover.Agent.Runtime
import Handover.Proofs.Call
import Handover.Proofs.Exchange.Accounts
import Handover.Proofs.Swap.Edits

/-!
# Calls one after another, and the agents' runtimes

A coordinator replaces agents, one call after another, and what it sends goes over a bus to the runtimes of the agents,
which take it whenever they get to it.
-/

namespace Handover

structure Site where
  coordinator : Coordinator
  bus : Bus
  /-- In the order of their subscriptions. -/
  runtimes : List AgentRuntime := []
  /-- The call that is under way. -/
  call : Option (Order × Swap) := none
  /-- The ping that the call waits for. -/
  ping : Option Request := none
  /-- The calls that have returned, the latest last. -/
  returned : List (Order × Outcome) := []

inductive Happening where
  /-- A runtime begins to listen for its agent. -/
  | launch (name : String)
  | place (o : Order)
  /-- The call goes on. -/
  | turn (around : Surroundings) (messageId inboxId : String)
  /-- A runtime takes a message, and answers it if it is a ping. -/
  | serve (runtime : Nat) (around : Surroundings) (messageId : String)

def Outcome.isCompleted : Outcome → Bool
  | completed _ => true
  | failed .. => false

theorem Outcome.completed_of (outcome : Outcome) (completed : outcome.isCompleted = true) :
    ∃ session, outcome = .completed session := by
  cases outcome with
  | completed session => exact ⟨session, rfl⟩
  | failed => cases completed

/-- The call under way goes on. -/
def Happening.isTurn : Happening → Bool
  | turn .. => true
  | _ => false

namespace Site

def opened (config : BusConfig) (coordinator : Coordinator) : Site where
  coordinator
  bus := .ofConfig config

def launch (site : Site) (name : String) : Site :=
  match site.bus.subscribe name controlTopic with
  | .ok (_, bus) => { site with bus, runtimes := site.runtimes ++ [{ name }] }
  | .error _ => site

/-- Nothing comes of a call while another one is under way. -/
def place (site : Site) (o : Order) : Site :=
  match site.call with
  | some _ => site
  | none =>
    match (o.start site.coordinator).swap with
    | .ok s => { site with call := some (o, s) }
    | .error e => { site with returned := site.returned ++ [(o, .failed e none)] }

def control (recipient : String) (command : Command) (id : String) (now : Instant) : Message where
  id
  sender := coordinatorName
  recipient
  topic := controlTopic
  payload := command.encode
  sentAt := now

/-- The context in which a command is sent: that of the call, or the one that the call made when it began to take back
what it had done, which lasts for a while. -/
def contextFor (s : Swap) (budgetMs : Option Nat) (around : Surroundings) : Context × Tokens :=
  match budgetMs with
  | none => (s.context, around.tokens)
  | some ms =>
    let (token, tokens) := around.tokens.fresh
    (({ token } : Context).deadlineAt (s.backSince + millis ms), tokens)

def send (site : Site) (o : Order) (s : Swap) (m : Message) (budgetMs : Option Nat) (around : Surroundings) : Site :=
  let (ctx, tokens) := contextFor s budgetMs around
  let (result, bus) := site.bus.publish tokens ctx around.moment m
  { site with bus, call := some (o, s.answer (result.map fun _ => none)) }

/-- Sends a ping, or looks whether the wait for its answer is over. -/
def ask (site : Site) (o : Order) (s : Swap) (m : Message) (inboxId : String) (around : Surroundings) : Site :=
  match site.ping with
  | none =>
    let (result, bus) := site.bus.openRequest around.tokens s.context around.moment m
      (millis site.coordinator.pingTimeoutMs) inboxId
    match result with
    | .ok r => { site with bus, ping := some r }
    | .error e => { site with bus, call := some (o, s.answer (.error e)) }
  | some r =>
    match site.bus.pollRequest around.tokens around.moment r with
    | some result =>
      { site with
        bus := site.bus.closeRequest r
        ping := none
        call := some (o, s.answer (result.map some)) }
    | none => site

def turn (site : Site) (around : Surroundings) (messageId inboxId : String) : Site :=
  match site.call with
  | none => site
  | some (o, s) =>
    match (⟨.ok s, site.coordinator⟩ : Call).outcome? with
    | some outcome => { site with call := none, returned := site.returned ++ [(o, outcome)] }
    | none =>
      match s.errand with
      | some (.send recipient command budgetMs) =>
        site.send o s (control recipient command messageId around.time) budgetMs around
      | some (.ask recipient command) => site.ask o s (control recipient command messageId around.time) inboxId around
      | none =>
        let (s, coordinator) := s.step site.coordinator around
        { site with coordinator, call := some (o, s) }

def serve (site : Site) (runtime : Nat) (around : Surroundings) (messageId : String) : Site :=
  match site.runtimes[runtime]?, site.bus.receive (runtime + 1) with
  | some a, some (m, bus) =>
    let (a, wanted) := a.receive m
    if wanted then
      let (token, tokens) := around.tokens.fresh
      let (result, bus) :=
        bus.reply tokens { token } around.moment m (m.replyWith messageId around.time Reply.ok.encode)
      { site with bus, runtimes := site.runtimes.set runtime (a.answered result) }
    else { site with bus, runtimes := site.runtimes.set runtime a }
  | _, _ => site

def act (site : Site) : Happening → Site
  | .launch name => site.launch name
  | .place o => site.place o
  | .turn around messageId inboxId => site.turn around messageId inboxId
  | .serve runtime around messageId => site.serve runtime around messageId

def run (site : Site) (happenings : List Happening) : Site := happenings.foldl act site

/-- A call that is to tell the old agent to go on does so before the context of its roll-back is over. -/
def InTime (site : Site) : Happening → Prop
  | .turn around .. => ∀ call ∈ site.call, call.2.phase = .resuming →
      around.moment < call.2.backSince + millis Swap.resumeBudgetMs
  | _ => True

instance (site : Site) : (h : Happening) → Decidable (site.InTime h)
  | .turn around .. => inferInstanceAs (Decidable (∀ call ∈ site.call, call.2.phase = .resuming →
      around.moment < call.2.backSince + millis Swap.resumeBudgetMs))
  | .launch _ | .place _ | .serve .. => inferInstanceAs (Decidable True)

/-- None of the messages that the calls send is dropped, or comes too late to be sent. -/
def Lossless : Site → List Happening → Prop
  | _, [] => True
  | site, h :: rest =>
    (h.isTurn = true → (site.act h).bus.stats.dropped = site.bus.stats.dropped) ∧ site.InTime h ∧
      (site.act h).Lossless rest

instance decidableLossless : (site : Site) → (happenings : List Happening) → Decidable (site.Lossless happenings)
  | _, [] => inferInstanceAs (Decidable True)
  | site, h :: rest =>
    have := decidableLossless (site.act h) rest
    inferInstanceAs (Decidable (_ ∧ _))

/-- A call that took the agent of this name out of service has completed. -/
def Retired (site : Site) (name : String) : Prop :=
  ∃ call ∈ site.returned, call.1.oldName = name ∧ call.2.isCompleted = true

instance (site : Site) (name : String) : Decidable (site.Retired name) :=
  inferInstanceAs (Decidable (∃ call ∈ site.returned, call.1.oldName = name ∧ call.2.isCompleted = true))

/-- Every runtime listens on the control subject of its agent, and the call goes on as its order says. -/
structure Orderly (site : Site) : Prop where
  sound : site.bus.Sound
  listeners : (site.bus.subscriptions.map fun s => (s.subject, s.listening)) =
    site.runtimes.map fun a => (site.bus.subjectFor a.name controlTopic, true)
  made : site.coordinator.registry.Made
  kept : ∀ o s, site.call = some (o, s) → ∃ c, o.Kept c s site.coordinator
  /-- A successor is in service when its call has returned. -/
  latest : site.call = none → ∀ o outcome, site.returned.getLast? = some (o, outcome) → outcome.isCompleted = true →
    ∃ a, site.coordinator.registry.agents.get? o.newName = some a ∧ a.status = .active

end Site

namespace Traffic

/-- Somebody sends a message. -/
def Sends : Traffic → Prop
  | publish .. | request .. | reply .. => True
  | _ => False

end Traffic

namespace Bus
variable {b b' : Bus} {t : Traffic} {s : Subscription} {subject : String} {m : Message} {id : Nat}

/-- The same subscriptions listen on the same subjects. -/
structure Steady (b b' : Bus) : Prop where
  sound : b.Sound → b'.Sound
  listeners : (b'.subscriptions.map fun s => (s.subject, s.listening)) =
    b.subscriptions.map fun s => (s.subject, s.listening)
  lead : b'.subjectPrefix = b.subjectPrefix

theorem Steady.trans {b'' : Bus} (first : Steady b b') (second : Steady b' b'') : Steady b b'' :=
  ⟨second.sound ∘ first.sound, second.listeners.trans first.listeners, second.lead.trans first.lead⟩

theorem Steady.mapped {f : Subscription → Subscription} (sound : b.Sound → b'.Sound)
    (subscriptions : b'.subscriptions = b.subscriptions.map f) (subject : ∀ s, (f s).subject = s.subject)
    (listening : ∀ s, (f s).listening = s.listening) (lead : b'.subjectPrefix = b.subjectPrefix) : Steady b b' := by
  refine ⟨sound, ?_, lead⟩
  rw [subscriptions, List.map_map]
  refine List.map_congr_left fun s _ => ?_
  rw [Function.comp, subject, listening]

theorem SameQueues.steady (same : SameQueues b b') : Steady b b' :=
  ⟨same.sound, by rw [same.subscriptions], same.lead⟩

theorem Hands.steady (hands : Hands b subject m b') : Steady b b' := by
  refine .mapped hands.sound hands.subscriptions (fun s => ?_) (fun s => ?_) hands.lead
  · split <;> rfl
  · split <;> rfl

theorem receive_steady (done : b.receive id = some (m, b')) : Steady b b' := by
  have sound := fun sound => (receive_thins sound done).sound sound
  obtain ⟨s, rest, _, _, _, rfl⟩ := receive_some done
  refine .mapped sound rfl (fun s => ?_) (fun s => ?_) rfl
  · split <;> rfl
  · split <;> rfl

/-- What is sent goes into queues, or it does not. -/
theorem Stirs.sends (stirs : b.Stirs t b') (sends : t.Sends) :
    SameQueues b b' ∨
      ∃ subject m, t.sent? b.subjectPrefix = some (subject, m) ∧ isInbox subject = false ∧ Hands b subject m b' := by
  cases stirs with
  | still _ _ _ calm => exact .inl calm.queues
  | joined | gaveUp | took | ended => cases sends
  | handed sent ordinary hands => exact .inr ⟨_, _, sent, ordinary, hands⟩
  | posted _ _ queues => exact .inl queues

theorem Stirs.steady (stirs : b.Stirs t b') (sends : t.Sends) : Steady b b' := by
  rcases stirs.sends sends with same | ⟨subject, m, _, _, hands⟩
  · exact same.steady
  · exact hands.steady

end Bus

namespace Site
variable {site : Site} {bus : Bus} {o : Order} {s s' : Swap} {c : Coordinator} {around : Surroundings}
  {heard : Except Error (Option Message)} {k : Nat} {a : AgentRuntime}

theorem opened_orderly (config : BusConfig) (made : c.registry.Made) : (opened config c).Orderly := by
  refine ⟨(Bus.ofConfig_regular config).sound, rfl, made, ?_, ?_⟩
  · intro o s under
    cases under
  · intro _ o outcome last
    cases last

theorem Orderly.listener (orderly : site.Orderly) (there : site.runtimes[k]? = some a) :
    ∃ s ∈ site.bus.subscriptions, s.id = k + 1 ∧ s.subject = site.bus.subjectFor a.name controlTopic ∧
      s.listening = true := by
  have listeners := congrArg (·[k]?) orderly.listeners
  simp only [List.getElem?_map, there, Option.map_some] at listeners
  obtain ⟨s, here, same⟩ := Option.map_eq_some_iff.mp listeners
  obtain ⟨subject, listening⟩ := Prod.mk.inj same
  exact ⟨s, List.mem_of_getElem? here, orderly.sound.id_at here, subject, listening⟩

theorem Orderly.listeners_steady (orderly : site.Orderly) (steady : site.bus.Steady bus) :
    (bus.subscriptions.map fun s => (s.subject, s.listening)) =
      site.runtimes.map fun a => (bus.subjectFor a.name controlTopic, true) := by
  rw [steady.listeners, orderly.listeners]
  refine List.map_congr_left fun a _ => ?_
  rw [Bus.subjectFor, Bus.subjectFor, steady.lead]

/-- The call goes on, and what it sends goes over the bus. -/
theorem Orderly.moved (orderly : site.Orderly) (steady : site.bus.Steady bus) (under : site.call = some (o, s))
    (moves : Swap.Moves s site.coordinator around heard s' c) (ping : Option Request) :
    Orderly { site with bus, coordinator := c, ping, call := some (o, s') } := by
  obtain ⟨c₀, kept⟩ := orderly.kept o s under
  refine ⟨steady.sound orderly.sound, orderly.listeners_steady steady, Swap.moves_made orderly.made moves, ?_, nofun⟩
  intro o' s'' same
  cases same
  exact ⟨c₀, Call.own_kept kept moves⟩

/-- Nothing but the bus changes, and the ping of the call. -/
theorem Orderly.waits (orderly : site.Orderly) (steady : site.bus.Steady bus) (ping : Option Request) :
    Orderly { site with bus, ping } :=
  ⟨steady.sound orderly.sound, orderly.listeners_steady steady, orderly.made, orderly.kept, orderly.latest⟩

theorem Orderly.served (orderly : site.Orderly) (steady : site.bus.Steady bus) (there : site.runtimes[k]? = some a)
    {a' : AgentRuntime} (same : a'.name = a.name) : Orderly { site with bus, runtimes := site.runtimes.set k a' } := by
  refine ⟨steady.sound orderly.sound, ?_, orderly.made, orderly.kept, orderly.latest⟩
  dsimp only
  have here : (site.runtimes.map fun a => (bus.subjectFor a.name controlTopic, true))[k]? =
      some (bus.subjectFor a'.name controlTopic, true) := by
    rw [List.getElem?_map, there, same]
    rfl
  obtain ⟨within, found⟩ := List.getElem?_eq_some_iff.mp here
  rw [orderly.listeners_steady steady, List.map_set, ← found, List.set_getElem_self]

theorem launch_orderly (orderly : site.Orderly) (name : String) : (site.launch name).Orderly := by
  unfold launch
  split
  · rename_i s bus done
    have joins := Bus.subscribe_joins done
    refine ⟨joins.sound orderly.sound, ?_, orderly.made, orderly.kept, orderly.latest⟩
    dsimp only [Bus.subjectFor]
    rw [joins.subscriptions, List.map_append, List.map_append, orderly.listeners, joins.lead, joins.new]
    rfl
  · exact orderly

theorem place_orderly (orderly : site.Orderly) (o : Order) : (site.place o).Orderly := by
  unfold place
  split
  · exact orderly
  · split
    · rename_i s begun
      refine ⟨orderly.sound, orderly.listeners, orderly.made, ?_, nofun⟩
      rintro o' s' ⟨⟩
      exact ⟨_, Call.start_kept orderly.made s begun⟩
    · refine ⟨orderly.sound, orderly.listeners, orderly.made, orderly.kept, fun _ o' outcome last completed => ?_⟩
      rw [List.getLast?_concat] at last
      cases last
      cases completed

theorem answer_moves (waits : s.errand.isSome = true) (around : Surroundings) (heard : Except Error (Option Message)) :
    Swap.Moves s c around heard (s.answer heard) c := Swap.answer_moves waits

theorem step_moves (free : s.errand = none) (around : Surroundings) :
    Swap.Moves s c around (.ok none) (s.step c around).1 (s.step c around).2 := by
  have moves := @Swap.advance_moves s c around (.ok none)
  rwa [Swap.advance, free] at moves

theorem publish_stirs (sound : site.bus.Sound) (ts : Tokens) (ctx : Context) (around : Surroundings) (m : Message) :
    site.bus.Stirs (.publish ctx { around with tokens := ts } m) (site.bus.publish ts ctx around.moment m).2 :=
  Exchange.publish_stirs (e := { bus := site.bus }) sound ctx { around with tokens := ts } m

theorem send_orderly (orderly : site.Orderly) (under : site.call = some (o, s)) (waits : s.errand.isSome = true)
    (m : Message) (budgetMs : Option Nat) (around : Surroundings) : (site.send o s m budgetMs around).Orderly := by
  have stirs := publish_stirs orderly.sound (contextFor s budgetMs around).2 (contextFor s budgetMs around).1 around m
  exact orderly.moved (stirs.steady trivial) under (answer_moves waits around _) site.ping

theorem ask_orderly (orderly : site.Orderly) (under : site.call = some (o, s)) (waits : s.errand.isSome = true)
    (m : Message) (inboxId : String) (around : Surroundings) : (site.ask o s m inboxId around).Orderly := by
  unfold ask
  split
  · have stirs := Exchange.ask_stirs (e := { bus := site.bus }) orderly.sound s.context around m
      (millis site.coordinator.pingTimeoutMs) inboxId
    have steady := stirs.steady trivial
    dsimp only
    split
    · exact orderly.waits steady _
    · exact orderly.moved steady under (answer_moves waits around _) site.ping
  · rename_i r _
    have same : Bus.SameQueues site.bus (site.bus.closeRequest r) := ⟨rfl, rfl, rfl, rfl⟩
    split
    · exact orderly.moved same.steady under (answer_moves waits around _) none
    · exact orderly

/-- A call that has returned left its names as it says. -/
theorem over_orderly (orderly : site.Orderly) (under : site.call = some (o, s)) {outcome : Outcome}
    (ended : (⟨.ok s, site.coordinator⟩ : Call).outcome? = some outcome) :
    Orderly { site with call := none, returned := site.returned ++ [(o, outcome)] } := by
  obtain ⟨c₀, kept⟩ := orderly.kept o s under
  refine ⟨orderly.sound, orderly.listeners, orderly.made, ?_, fun _ o' outcome' last completed => ?_⟩
  · intro o' s' under
    cases under
  · rw [List.getLast?_concat] at last
    cases last
    obtain ⟨session, rfl⟩ := outcome.completed_of completed
    obtain ⟨s', begun, atEnd, sound, _⟩ := Call.completed_cases ended
    cases begun
    obtain ⟨_, _, _, entry⟩ := ((Swap.over_entries kept.order.stands atEnd).2 sound).new
    rw [kept.fits.newName] at entry
    exact ⟨_, entry, rfl⟩

theorem turn_orderly (orderly : site.Orderly) (around : Surroundings) (messageId inboxId : String) :
    (site.turn around messageId inboxId).Orderly := by
  unfold turn
  split
  · exact orderly
  · rename_i o s under
    split
    · rename_i ended
      exact over_orderly orderly under ended
    · split
      · rename_i errand
        exact send_orderly orderly under (by rw [errand]; rfl) _ _ around
      · rename_i errand
        exact ask_orderly orderly under (by rw [errand]; rfl) _ inboxId around
      · rename_i free
        exact orderly.moved (Bus.SameQueues.steady ⟨rfl, rfl, rfl, rfl⟩) under (step_moves free around) site.ping

theorem receive_name (a : AgentRuntime) (m : Message) : (a.receive m).1.name = a.name := by
  unfold AgentRuntime.receive
  split <;> rfl

theorem answered_name (a : AgentRuntime) (result : Except Error Unit) : (a.answered result).name = a.name := by
  unfold AgentRuntime.answered
  split <;> rfl

theorem reply_stirs (sound : bus.Sound) (ts : Tokens) (ctx : Context) (around : Surroundings) (m : Message)
    (id : String) (payload : Json) :
    bus.Stirs (.reply ctx { around with tokens := ts } m id payload)
      (bus.reply ts ctx around.moment m (m.replyWith id around.time payload)).2 :=
  Exchange.answer_stirs (e := { bus }) sound ctx { around with tokens := ts } m id payload

theorem serve_orderly (orderly : site.Orderly) (runtime : Nat) (around : Surroundings) (messageId : String) :
    (site.serve runtime around messageId).Orderly := by
  unfold serve
  split
  · rename_i a m bus there done
    have steady := Bus.receive_steady done
    have same := receive_name a m
    dsimp only
    split
    · have stirs := reply_stirs (steady.sound orderly.sound) around.tokens.fresh.2 { token := around.tokens.fresh.1 }
        around m messageId Reply.ok.encode
      exact orderly.served (steady.trans (stirs.steady trivial)) there ((answered_name _ _).trans same)
    · exact orderly.served steady there same
  · exact orderly

theorem act_orderly (orderly : site.Orderly) (h : Happening) : (site.act h).Orderly := by
  cases h with
  | launch name => exact launch_orderly orderly name
  | place o => exact place_orderly orderly o
  | turn around messageId inboxId => exact turn_orderly orderly around messageId inboxId
  | serve runtime around messageId => exact serve_orderly orderly runtime around messageId

end Site
end Handover
