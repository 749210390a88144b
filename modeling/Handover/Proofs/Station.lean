import Handover.Proofs.Agent.Runtime
import Handover.Proofs.Context
import Handover.Proofs.Exchange.Once
import Mathlib.Data.List.Perm.Basic

/-!
# A runtime on a busy bus

A runtime takes the messages of its subscription one after another, and answers the pings among them while it goes on.
Meanwhile others use the bus as they like. `runtime_follows_messages` says what the messages make of the runtime, and
what its replies come to.
-/

namespace Handover

structure Station where
  runtime : AgentRuntime
  subscription : Nat
  exchange : Exchange
  /-- The pings that are to be answered. -/
  pending : List Message := []
  /-- The messages that the runtime has taken. -/
  taken : List Message := []
  /-- Its calls to reply. -/
  given : List Answer := []

inductive Station.Incident where
  /-- Somebody else does something. -/
  | traffic (t : Traffic)
  | take
  /-- The ping in this place among those to be answered is answered. -/
  | respond (place : Nat) (around : Surroundings) (id : String)

namespace Station

def start (e : Exchange) (name : String) : Except Error Station := do
  let (s, bus) ← e.bus.subscribe name controlTopic
  return { runtime := { name }, subscription := s.id, exchange := { e with bus } }

def take (s : Station) : Station :=
  match s.exchange.bus.receive s.subscription with
  | some (m, bus) =>
    let (runtime, wanted) := s.runtime.receive m
    { s with
      runtime
      exchange := { s.exchange with bus }
      pending := if wanted then s.pending ++ [m] else s.pending
      taken := s.taken ++ [m] }
  | none => s

/-- The reply to a ping, in a context of its own. -/
def reply (s : Station) (m : Message) (around : Surroundings) (id : String) : Answer :=
  let (context, tokens) := Context.fresh around.tokens
  s.exchange.replied context { around with tokens } m id Reply.ok.encode

def respond (s : Station) (place : Nat) (around : Surroundings) (id : String) : Station :=
  match s.pending[place]? with
  | none => s
  | some m =>
    let a := s.reply m around id
    { s with
      runtime := s.runtime.answered a.result
      exchange := s.exchange.answer a.context a.around m id a.payload
      pending := s.pending.eraseIdx place
      given := s.given ++ [a] }

def act (s : Station) : Incident → Station
  | .traffic t => { s with exchange := s.exchange.step t }
  | .take => s.take
  | .respond place around id => s.respond place around id

def run (s : Station) (incidents : List Incident) : Station := incidents.foldl act s

def Incident.inboxId? : Incident → Option String
  | traffic t => t.inboxId?
  | take | respond .. => none

variable {s s' station : Station} {m : Message} {bus : Bus} {around : Surroundings} {id inbox name : String}
  {a : Answer} {incident : Incident} {incidents : List Incident} {e : Exchange}

/-- What may come of a turn of the runtime, or of what others do. -/
inductive Goes (s : Station) : Incident → Station → Prop where
  | idle {incident : Incident} (quiet : incident.inboxId? = none) : Goes s incident s
  | moved (t : Traffic) : Goes s (.traffic t) { s with exchange := s.exchange.step t }
  | took {m : Message} {bus : Bus} (received : s.exchange.bus.receive s.subscription = some (m, bus)) :
      Goes s .take
        { s with
          runtime := (s.runtime.receive m).1
          exchange := { s.exchange with bus }
          pending := if m.isPing then s.pending ++ [m] else s.pending
          taken := s.taken ++ [m] }
  | replied {m : Message} {place : Nat} (pending : s.pending[place]? = some m) (around : Surroundings) (id : String) :
      Goes s (.respond place around id)
        { s with
          runtime := s.runtime.answered (s.reply m around id).result
          exchange := s.exchange.answer (s.reply m around id).context (s.reply m around id).around m id Reply.ok.encode
          pending := s.pending.eraseIdx place
          given := s.given ++ [s.reply m around id] }

theorem act_goes (s : Station) (incident : Incident) : s.Goes incident (s.act incident) := by
  cases incident with
  | traffic t => exact .moved t
  | take =>
    rw [act, take]
    split
    · rename_i m bus received
      have goes := Goes.took received
      rwa [← AgentRuntime.receive_wanted] at goes
    · exact .idle rfl
  | respond place around id =>
    rw [act, respond]
    split
    · exact .idle rfl
    · rename_i m pending
      exact .replied pending around id

/-- What a runtime does is traffic like that of others. -/
theorem Goes.traffic (goes : s.Goes incident s') : ∃ traffic, s'.exchange = s.exchange.run traffic ∧
    traffic.filterMap Traffic.inboxId? = incident.inboxId?.toList := by
  cases goes with
  | idle quiet => exact ⟨[], rfl, quiet ▸ rfl⟩
  | moved t => exact ⟨[t], rfl, (Exchange.filterMap_cons_toList _ _ _).trans (List.append_nil _)⟩
  | took received =>
    refine ⟨[.receive s.subscription], ?_, rfl⟩
    rw [Exchange.run, List.foldl_cons, List.foldl_nil, Exchange.step, received]
  | @replied m _ _ around id =>
    exact ⟨[.reply (s.reply m around id).context (s.reply m around id).around m id _], rfl, rfl⟩

theorem run_traffic (s : Station) (incidents : List Incident) : ∃ traffic,
    (s.run incidents).exchange = s.exchange.run traffic ∧
      traffic.filterMap Traffic.inboxId? = incidents.filterMap Incident.inboxId? := by
  induction incidents generalizing s with
  | nil => exact ⟨[], rfl, rfl⟩
  | cons incident rest ih =>
    obtain ⟨first, went, drawn⟩ := (s.act_goes incident).traffic
    obtain ⟨later, went', drawn'⟩ := ih (s.act incident)
    refine ⟨first ++ later, ?_, ?_⟩
    · rw [Exchange.run, List.foldl_append, ← Exchange.run, ← Exchange.run, ← went]
      exact went'
    · rw [List.filterMap_append, Exchange.filterMap_cons_toList, drawn, drawn']

theorem start_traffic (started : start e name = .ok s) : s.exchange = e.step (.subscribe name controlTopic) := by
  unfold start at started
  rw [Exchange.step]
  cases subscribed : e.bus.subscribe name controlTopic with
  | error => rw [subscribed] at started; cases started
  | ok made => rw [subscribed] at started; cases started; rfl

/-- All that has happened on the bus up to the end of the incidents. -/
theorem started_traffic {config : BusConfig} {before : List Traffic}
    (started : start ((Exchange.opened config).run before) name = .ok s) (incidents : List Incident) : ∃ traffic,
    (s.run incidents).exchange = (Exchange.opened config).run traffic ∧
      traffic.filterMap Traffic.inboxId? =
        before.filterMap Traffic.inboxId? ++ incidents.filterMap Incident.inboxId? := by
  obtain ⟨traffic, went, drawn⟩ := s.run_traffic incidents
  refine ⟨before ++ .subscribe name controlTopic :: traffic, ?_, ?_⟩
  · rw [went, start_traffic started, Exchange.run, Exchange.run, Exchange.run, List.foldl_append, List.foldl_cons]
  · rw [List.filterMap_append, ← drawn]
    rfl

/-- What the runtime has made of its messages. -/
structure Ledger (s : Station) : Prop where
  paused : s.runtime.paused = s.taken.foldl (fun paused m => m.pauses paused) false
  pings : s.runtime.pings = s.given.countP fun a => a.result.isOk
  paired : (s.given.map Answer.received ++ s.pending).Perm (s.taken.filter Message.isPing)
  kind : ∀ a ∈ s.given, a.payload = Reply.ok.encode
  recorded : s.given.Sublist s.exchange.answers

theorem start_ledger (started : start e name = .ok s) : Ledger s := by
  unfold start at started
  cases subscribed : e.bus.subscribe name controlTopic with
  | error => rw [subscribed] at started; cases started
  | ok made =>
    rw [subscribed] at started
    cases started
    exact ⟨rfl, rfl, .nil, (fun _ there => nomatch there), List.nil_sublist _⟩

theorem Goes.ledger (goes : s.Goes incident s') (ledger : Ledger s) : Ledger s' := by
  cases goes with
  | idle => exact ledger
  | moved t =>
    exact { ledger with recorded := ledger.recorded.trans (Exchange.step_answers s.exchange t).sublist }
  | @took m bus received =>
    refine ⟨?_, ?_, ?_, ledger.kind, ledger.recorded⟩
    · rw [List.foldl_append, ← ledger.paused]
      exact AgentRuntime.receive_paused
    · exact AgentRuntime.receive_pings.trans ledger.pings
    · rw [List.filter_append]
      cases ping : m.isPing with
      | false => simpa [ping] using ledger.paired
      | true => simpa [ping] using ledger.paired.append_right [m]
  | @replied m place pending around id =>
    refine ⟨?_, ?_, ?_, fun a there => ?_, ?_⟩
    · exact (AgentRuntime.answered_paused _).trans ledger.paused
    · rw [List.countP_append, ← ledger.pings, List.countP_singleton]
      cases result : (s.reply m around id).result with
      | ok => rfl
      | error => rfl
    · obtain ⟨inside, rfl⟩ := List.getElem?_eq_some_iff.mp pending
      rw [List.map_append, List.append_assoc]
      exact ((List.getElem_cons_eraseIdx_perm inside).append_left _).trans ledger.paired
    · rcases List.mem_append.mp there with earlier | last
      · exact ledger.kind a earlier
      · obtain rfl := List.mem_singleton.mp last
        rfl
    · exact ledger.recorded.append (List.Sublist.refl _)

theorem run_ledger (ledger : Ledger s) (incidents : List Incident) : Ledger (s.run incidents) := by
  induction incidents generalizing s with
  | nil => exact ledger
  | cons incident rest ih => exact ih ((s.act_goes incident).ledger ledger)

theorem take_undecoded (received : s.exchange.bus.receive s.subscription = some (m, bus))
    {error : Error} (garbled : m.decodePayload Command.decode = .error error) :
    s.take = { s with exchange := { s.exchange with bus }, taken := s.taken ++ [m] } := by
  unfold take
  rw [received]
  simp only [AgentRuntime.receive_undecoded garbled, Bool.false_eq_true, if_false]

theorem reply_alive (s : Station) (m : Message) (around : Surroundings) (id : String) :
    (s.reply m around id).context.check (s.reply m around id).around.tokens (s.reply m around id).around.moment =
      .ok () := by
  rw [Context.check_ok_iff]
  exact ⟨by simp [reply, Exchange.replied, Context.fresh, Tokens.fresh, Tokens.isCancelled], nofun⟩

theorem reply_decodes (same : a.payload = Reply.ok.encode) :
    a.message.decodePayload Reply.decode = .ok Reply.ok := by
  rw [Message.decodePayload, Answer.message, Message.replyWith, same]
  rfl

/-- The reply to a ping whose requester waits, whatever happens later. -/
theorem respond_serves (single : s.exchange.Single) {place : Nat} (pending : s.pending[place]? = some m)
    (addressed : m.replyTo = some inbox) (waits : s.exchange.bus.inboxes.get? inbox = some none)
    (distinct : (s.exchange.inquiries.map Inquiry.inboxId ++ incidents.filterMap Incident.inboxId?).Nodup) :
    (s.respond place around id).runtime = { s.runtime with pings := s.runtime.pings + 1 } ∧
      (s.reply m around id).Serves inbox ((s.respond place around id).run incidents).exchange := by
  obtain ⟨traffic, went, drawn⟩ := (s.respond place around id).run_traffic incidents
  rw [← drawn] at distinct
  have serves := single.serves (reply_alive s m around id) addressed waits id Reply.ok.encode distinct
  rw [went, respond, pending]
  exact ⟨congrArg s.runtime.answered serves.taken, serves⟩

/-- What a runtime has made of the messages that it took, and what came of its replies. -/
structure Follows (s : Station) : Prop where
  /-- The last message that says whether the agent is to be paused says that it is. -/
  paused : s.runtime.paused = true ↔ ∃ earlier m later, s.taken = earlier ++ m :: later ∧
    m.decodePayload Command.decode = .ok .pause ∧ ∀ m' ∈ later, ¬ m'.Toggles
  pings : s.runtime.pings = s.given.countP fun a => a.result.isOk
  /-- One reply is given to every ping, and none to anything else. -/
  paired : (s.given.map Answer.received ++ s.pending).Perm (s.taken.filter Message.isPing)
  recorded : s.given.Sublist s.exchange.answers
  kind : ∀ a ∈ s.given, a.message.decodePayload Reply.decode = .ok { status := "ok" }
  /-- What is no command is off the queue, and that is all. -/
  undecoded : ∀ m bus error, s.exchange.bus.receive s.subscription = some (m, bus) →
    m.decodePayload Command.decode = .error error →
    s.take = { s with exchange := { s.exchange with bus }, taken := s.taken ++ [m] }

theorem Ledger.follows (ledger : Ledger s) : s.Follows where
  paused := by
    rw [ledger.paused, Message.foldl_pauses_iff]
    simp
  pings := ledger.pings
  paired := ledger.paired
  recorded := ledger.recorded
  kind := fun a there => reply_decodes (ledger.kind a there)
  undecoded := fun _ _ _ received garbled => take_undecoded received garbled

/-- Whatever others do on the bus, and whatever a runtime is sent: its flag and its count follow from the messages that
it took. A ping whose requester waits is answered, paused or not, and by nobody else if no two requests draw the same
inbox. -/
theorem runtime_follows_messages (config : BusConfig) (before : List Traffic) (name : String)
    (incidents : List Incident) (started : start ((Exchange.opened config).run before) name = .ok station)
    (distinct : (before.filterMap Traffic.inboxId? ++ incidents.filterMap Incident.inboxId?).Nodup) :
    (station.run incidents).Follows ∧
      ∀ earlier place around id later m inbox, incidents = earlier ++ .respond place around id :: later →
        (station.run earlier).pending[place]? = some m → m.replyTo = some inbox →
        (station.run earlier).exchange.bus.inboxes.get? inbox = some none →
        ((station.run earlier).respond place around id).runtime =
            { (station.run earlier).runtime with pings := (station.run earlier).runtime.pings + 1 } ∧
          ((station.run earlier).reply m around id).message.decodePayload Reply.decode = .ok { status := "ok" } ∧
          ((station.run earlier).reply m around id).Serves inbox (station.run incidents).exchange := by
  refine ⟨(run_ledger (start_ledger started) incidents).follows, ?_⟩
  rintro earlier place around id later m inbox rfl pending addressed waits
  obtain ⟨traffic, went, drawn⟩ := started_traffic started earlier
  -- A reply draws no inbox, so those drawn before it and those drawn after it are all there are.
  have drawn' : (earlier ++ .respond place around id :: later).filterMap Incident.inboxId? =
      earlier.filterMap Incident.inboxId? ++ later.filterMap Incident.inboxId? := List.filterMap_append
  rw [drawn', ← List.append_assoc, ← drawn] at distinct
  have single := Exchange.run_single (Exchange.opened_single config) (List.nodup_append.mp distinct).1
  have asked : (station.run earlier).exchange.inquiries.map Inquiry.inboxId = traffic.filterMap Traffic.inboxId? := by
    rw [went]
    exact Exchange.run_asks (Exchange.opened config) traffic
  rw [← went] at single
  rw [← asked] at distinct
  have final : station.run (earlier ++ .respond place around id :: later) =
      ((station.run earlier).respond place around id).run later := List.foldl_append
  rw [final]
  obtain ⟨counted, serves⟩ := respond_serves single pending addressed waits distinct
  exact ⟨counted, reply_decodes rfl, serves⟩

end Station

namespace Sample

def ordered (id : String) (payload : Json) : Message where
  id
  sender := coordinatorName
  recipient := "elder"
  topic := controlTopic
  payload
  sentAt := ⟨0, 0⟩

/-- A runtime is paused, is sent what is no command, and is asked for a sign of life. -/
def duty : List Station.Incident :=
  [.traffic (.publish { token := 0 } { time := ⟨1, 0⟩ } (ordered "1" Command.pause.encode)),
    .traffic (.publish { token := 0 } { time := ⟨1, 0⟩ } (ordered "2" (.obj [("command", .str "dance")]))),
    .traffic (.request { token := 0 } { time := ⟨1, 0⟩ } (ordered "3" Command.ping.encode) 1000 "first"),
    .take, .take, .take]

end Sample

namespace Station

theorem runtime_follows_messages_on_duty : ∃ station, start ((Exchange.opened {}).run []) "elder" = .ok station ∧
    (station.run (Sample.duty ++ [.respond 0 { time := ⟨2, 0⟩ } "4"])).Follows ∧
    (station.run (Sample.duty ++ [.respond 0 { time := ⟨2, 0⟩ } "4"])).runtime =
      { name := "elder", paused := true, pings := 1 } ∧
    ((station.run Sample.duty).reply { Sample.ordered "3" Command.ping.encode with replyTo := some "_INBOX.first" }
        { time := ⟨2, 0⟩ } "4").Serves "_INBOX.first"
      (station.run (Sample.duty ++ [.respond 0 { time := ⟨2, 0⟩ } "4"])).exchange := by
  refine ⟨_, rfl, ?_⟩
  obtain ⟨follows, serves⟩ := runtime_follows_messages {} [] "elder"
    (Sample.duty ++ [.respond 0 { time := ⟨2, 0⟩ } "4"]) rfl (by decide)
  exact ⟨follows, rfl, (serves Sample.duty _ _ _ [] _ _ rfl rfl rfl rfl).2.2⟩

end Station
end Handover
