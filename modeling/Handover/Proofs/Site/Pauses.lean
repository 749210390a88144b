import Handover.Proofs.Agent.Runtime
import Handover.Proofs.Exchange.Addresses
import Handover.Proofs.Site

/-!
# Who is paused

A runtime that is paused when it has handled all its messages was told so by a call that has not told it to go on: one
that is under way, or one that completed and took the agent out of service. Nothing tells a runtime to go on when its
agent comes into service again.
-/

namespace Handover

namespace Message

theorem subject_name {lead agent agent' topic : String} (same : subject lead agent topic = subject lead agent' topic) :
    agent = agent' := by
  rw [subject_eq_iff, ← String.toList_inj] at same
  simp only [String.toList_append, List.append_cancel_right_eq] at same
  exact String.toList_inj.mp same

end Message

namespace Swap
variable {s s' : Swap} {c c' : Coordinator} {around : Surroundings} {heard : Except Error (Option Message)}
  {before : Option Registration}

/-- The swap may have told the old agent to pause, and has not told it to go on. -/
structure Detains (s : Swap) : Prop where
  paused : s.oldPaused = true
  unresumed : s.error = none ∨ s.phase = .undoing ∨ s.phase = .reviving ∨ s.phase = .resuming

theorem errand_phase {e : Errand} (waits : s.errand = some e) :
    s.phase = .telling ∧ e = .send s.oldName .pause none ∨ s.phase = .asking ∧ e = .ask s.newName .ping ∨
      s.phase = .resuming ∧ e = .send s.session.oldName .resume (some resumeBudgetMs) := by
  unfold errand at waits
  split at waits <;> simp_all

theorem moves_detains (order : InOrder before s c.registry.agents) (detains : s.Detains)
    (other : s.phase ≠ .resuming) (moves : Moves s c around heard s' c') : s'.Detains := by
  obtain ⟨paused, unresumed⟩ := detains
  cases moves with
  | stopped | vanished | unfinished => exact ⟨paused, .inr (.inl (if_pos paused))⟩
  | undone => exact ⟨paused, .inr (.inr (.inl rfl))⟩
  | revived => exact ⟨paused, .inr (.inr (.inr rfl))⟩
  | unrevived phase missing => exact (unrevived_absurd order phase missing).elim
  | resumed phase => exact absurd phase other
  | rested => exact ⟨paused, unresumed⟩
  | opened phase | entered phase | captured phase | paused phase | told phase | looked phase | enrolled phase
  | verified phase | handed phase | activated phase | removed phase | left phase | won phase | closed phase =>
    have sound : s.error = none := by
      rcases unresumed with sound | back | back | back
      · exact sound
      all_goals cases phase.symm.trans back
    first | exact ⟨paused, .inl sound⟩ | exact ⟨rfl, .inl sound⟩

end Swap

namespace Site
variable {site : Site} {bus : Bus} {o : Order} {s s' : Swap} {c : Coordinator} {around : Surroundings}
  {heard : Except Error (Option Message)} {k : Nat} {a : AgentRuntime} {t : Traffic} {m : Message}

/-- A runtime that will be paused is that of an agent that was taken out of service, or that the call under way
detains. -/
def Explained (site : Site) : Prop :=
  ∀ (k : Nat) (a : AgentRuntime), site.runtimes[k]? = some a → a.pausedAfter (site.bus.queueOf (k + 1)) = true →
    Bus.isInbox (site.bus.subjectFor a.name controlTopic) = false ∧
      (site.Retired a.name ∨ ∃ o s, site.call = some (o, s) ∧ s.session.oldName = a.name ∧ s.Detains)

theorem control_pauses (recipient : String) (command : Command) (id : String) (now : Instant) (paused : Bool) :
    (control recipient command id now).pauses paused =
      match command with
      | .pause => true
      | .resume => false
      | .ping => paused := by
  cases command <;> rfl

/-! ## What is sent -/

/-- What is sent comes into the queue of a runtime only on the subject of its agent. -/
theorem Orderly.sent (orderly : site.Orderly) (stirs : site.bus.Stirs t bus) (sends : t.Sends)
    (there : site.runtimes[k]? = some a) :
    bus.queueOf (k + 1) = site.bus.queueOf (k + 1) ∨
      ∃ m, t.sent? site.bus.subjectPrefix = some (site.bus.subjectFor a.name controlTopic, m) ∧
        Bus.isInbox (site.bus.subjectFor a.name controlTopic) = false ∧
        bus.queueOf (k + 1) = site.bus.queueOf (k + 1) ++ [m] := by
  obtain ⟨s, on, own, subject, _⟩ := orderly.listener there
  have known := orderly.sound.subscription? on
  rw [own] at known
  rcases stirs.sends sends with same | ⟨_, m, sent, ordinary, hands⟩
  · exact .inl (by rw [Bus.queueOf, same.subscription?, Bus.queueOf])
  · have found := hands.subscription? (k + 1)
    rw [known, Option.map_some] at found
    split at found
    · rename_i takes
      obtain ⟨same, _, _⟩ := Subscription.takes_iff.mp takes
      rw [← same.symm.trans subject] at *
      refine .inr ⟨m, sent, ordinary, ?_⟩
      rw [Bus.queueOf_found found, Bus.queueOf_found known, Subscription.push]
    · left
      rw [Bus.queueOf_found found, Bus.queueOf_found known]

/-- What is sent and not dropped comes into the queue of every runtime on the subject. -/
theorem Orderly.delivered (orderly : site.Orderly) (stirs : site.bus.Stirs t bus) (there : site.runtimes[k]? = some a)
    (sent : t.sent? site.bus.subjectPrefix = some (site.bus.subjectFor a.name controlTopic, m))
    (ordinary : Bus.isInbox (site.bus.subjectFor a.name controlTopic) = false)
    (kept : bus.stats.dropped = site.bus.stats.dropped) :
    bus.queueOf (k + 1) = site.bus.queueOf (k + 1) ++ [m] := by
  obtain ⟨s, on, own, subject, listening⟩ := orderly.listener there
  have known := orderly.sound.subscription? on
  rw [own] at known
  rcases stirs.sent sent with ⟨_, hands⟩ | ⟨inbox, _⟩
  · have room : s.overflows site.bus.capacity (site.bus.subjectFor a.name controlTopic) = false := by
      have dropped := hands.dropped
      rw [kept, Nat.left_eq_add] at dropped
      exact Bool.eq_false_iff.mpr (List.countP_eq_zero.mp dropped s on)
    have takes : s.takes site.bus.capacity (site.bus.subjectFor a.name controlTopic) = true := by
      rw [← Bool.not_eq_true, Subscription.overflows_iff] at room
      refine Subscription.takes_iff.mpr ⟨subject, listening, ?_⟩
      exact Nat.lt_of_not_le fun full => room ⟨subject, listening, full⟩
    have found := hands.subscription? (k + 1)
    rw [known, Option.map_some, if_pos takes] at found
    rw [Bus.queueOf_found found, Bus.queueOf_found known, Subscription.push]
  · cases ordinary.symm.trans inbox

/-- A message that tells nobody to pause pauses nobody. -/
theorem Orderly.unpaused (orderly : site.Orderly) (stirs : site.bus.Stirs t bus) (sends : t.Sends)
    (there : site.runtimes[k]? = some a)
    (harmless : ∀ subject m, t.sent? site.bus.subjectPrefix = some (subject, m) → m.pauses false = false)
    (paused : a.pausedAfter (bus.queueOf (k + 1)) = true) : a.pausedAfter (site.bus.queueOf (k + 1)) = true := by
  rcases orderly.sent stirs sends there with same | ⟨m, sent, _, came⟩
  · rwa [same] at paused
  · rw [came, AgentRuntime.pausedAfter_concat] at paused
    cases before : a.pausedAfter (site.bus.queueOf (k + 1)) with
    | true => rfl
    | false =>
      rw [before, harmless _ m sent] at paused
      cases paused

/-- Nothing but time ends the context of a roll-back. -/
theorem back_alive (s : Swap) (around : Surroundings) (ms : Nat) :
    (contextFor s (some ms) around).1.check (contextFor s (some ms) around).2 around.moment = .ok () ↔
      around.moment < s.backSince + millis ms := by
  have live : (contextFor s (some ms) around).2.isCancelled (contextFor s (some ms) around).1.token = false := by
    simp [contextFor, Tokens.fresh, Tokens.isCancelled, Context.deadlineAt]
  have expired : (contextFor s (some ms) around).1.expired around.moment =
      decide (s.backSince + millis ms ≤ around.moment) := rfl
  rw [Context.check, live, expired, ← Nat.not_le]
  by_cases late : s.backSince + millis ms ≤ around.moment <;> simp [late]

/-! ## What happens leaves nobody paused without a cause -/

theorem Retired.kept {name : String} (retired : site.Retired name) (entry : Order × Outcome) :
    Retired { site with returned := site.returned ++ [entry] } name := by
  obtain ⟨call, there, own, completed⟩ := retired
  exact ⟨call, List.mem_append_left _ there, own, completed⟩

theorem launch_explained (orderly : site.Orderly) (explained : site.Explained) (name : String) :
    (site.launch name).Explained := by
  unfold launch
  split
  · rename_i s bus done
    have joins := Bus.subscribe_joins done
    have sound := joins.sound orderly.sound
    have length := congrArg List.length orderly.listeners
    rw [List.length_map, List.length_map] at length
    intro k a there paused
    dsimp only at there paused ⊢
    rw [List.getElem?_append] at there
    split at there
    · obtain ⟨s, on, own, _⟩ := orderly.listener there
      have known := orderly.sound.subscription? on
      rw [own] at known
      have found := joins.subscription? (k + 1)
      rw [known, Option.some_or] at found
      rw [Bus.queueOf_found found, ← Bus.queueOf_found known] at paused
      have explained := explained k a there paused
      rw [Bus.subjectFor, joins.lead]
      exact explained
    · rename_i last
      rw [List.getElem?_singleton] at there
      split at there
      · cases there
        have place : k = site.bus.subscriptions.length := by omega
        -- The new runtime was not paused, and nothing waits for it.
        have on := joins.subscriptions ▸ List.mem_append_right site.bus.subscriptions (List.mem_singleton_self s)
        have queue := sound.queueOf on
        rw [joins.new] at queue
        rw [place, queue] at paused
        cases paused
      · cases there
  · exact explained

theorem place_explained (explained : site.Explained) (o : Order) : (site.place o).Explained := by
  unfold place
  split
  · exact explained
  · rename_i idle
    split
    · intro k a there paused
      obtain ⟨ordinary, retired | ⟨_, _, under, _⟩⟩ := explained k a there paused
      · exact ⟨ordinary, .inl retired⟩
      · cases idle.symm.trans under
    · intro k a there paused
      obtain ⟨ordinary, retired | detained⟩ := explained k a there paused
      · exact ⟨ordinary, .inl (retired.kept _)⟩
      · exact ⟨ordinary, .inr detained⟩

theorem over_explained (explained : site.Explained) (under : site.call = some (o, s)) {outcome : Outcome}
    (ended : (⟨.ok s, site.coordinator⟩ : Call).outcome? = some outcome) (fits : s.session.oldName = o.oldName) :
    Explained { site with call := none, returned := site.returned ++ [(o, outcome)] } := by
  intro k a there paused
  obtain ⟨ordinary, retired | ⟨o', s', under', own, detains⟩⟩ := explained k a there paused
  · exact ⟨ordinary, .inl (retired.kept _)⟩
  · cases under.symm.trans under'
    refine ⟨ordinary, .inl ?_⟩
    obtain ⟨atEnd, given⟩ := Call.outcome_begun rfl ended
    have phase : s.phase = .finished := by simpa [Swap.isOver] using atEnd
    have sound : s.error = none := by
      rcases detains.unresumed with sound | back | back | back
      · exact sound
      all_goals cases phase.symm.trans back
    rw [sound] at given
    cases given
    exact ⟨(o, .completed s.session), List.mem_append_right _ (.head _), fits.symm.trans own, rfl⟩

/-- The call goes on. Of the runtimes that will be paused each would have been so before, unless the call detains its
agent. -/
theorem Explained.moved (explained : site.Explained) (orderly : site.Orderly) (under : site.call = some (o, s))
    (moves : Swap.Moves s site.coordinator around heard s' c) (lead : bus.subjectPrefix = site.bus.subjectPrefix)
    (flags : ∀ (k : Nat) (a : AgentRuntime), site.runtimes[k]? = some a →
      a.pausedAfter (bus.queueOf (k + 1)) = true →
        a.pausedAfter (site.bus.queueOf (k + 1)) = true ∧ (s.phase = .resuming → a.name ≠ s.session.oldName) ∨
          Bus.isInbox (site.bus.subjectFor a.name controlTopic) = false ∧ a.name = s.session.oldName ∧ s'.Detains)
    (ping : Option Request) : Explained { site with bus, coordinator := c, ping, call := some (o, s') } := by
  have oldName : s'.session.oldName = s.session.oldName := congrArg (·.2.2.2.2.1) (Swap.moves_terms moves)
  obtain ⟨c₀, kept⟩ := orderly.kept o s under
  intro k a there paused
  dsimp only [Bus.subjectFor] at *
  rw [lead]
  rcases flags k a there paused with ⟨before, other⟩ | ⟨ordinary, own, detains⟩
  · obtain ⟨ordinary, retired | ⟨o', s'', under', own, detains⟩⟩ := explained k a there before
    · exact ⟨ordinary, .inl retired⟩
    · cases under.symm.trans under'
      refine ⟨ordinary, .inr ⟨o, s', rfl, oldName.trans own, ?_⟩⟩
      exact Swap.moves_detains kept.order detains (fun phase => other phase own.symm) moves
  · exact ⟨ordinary, .inr ⟨o, s', rfl, oldName.trans own.symm, detains⟩⟩

/-- Nothing but the bus changes, and the ping of the call. -/
theorem Explained.unmoved (explained : site.Explained) (lead : bus.subjectPrefix = site.bus.subjectPrefix)
    (flags : ∀ (k : Nat) (a : AgentRuntime), site.runtimes[k]? = some a →
      a.pausedAfter (bus.queueOf (k + 1)) = true → a.pausedAfter (site.bus.queueOf (k + 1)) = true)
    (ping : Option Request) : Explained { site with bus, ping } := by
  intro k a there paused
  have explained := explained k a there (flags k a there paused)
  dsimp only [Bus.subjectFor] at *
  rw [lead]
  exact explained

/-- Any runtime of the agent is told to pause, and the call then detains it. -/
theorem tell_explained (orderly : site.Orderly) (explained : site.Explained) (under : site.call = some (o, s))
    (phase : s.phase = .telling) (id : String) (around : Surroundings) :
    (site.send o s (control s.oldName .pause id around.time) none around).Explained := by
  obtain ⟨c₀, kept⟩ := orderly.kept o s under
  have waits : s.errand.isSome = true := by rw [Swap.errand, phase]; rfl
  have stirs := publish_stirs orderly.sound around.tokens s.context around (control s.oldName .pause id around.time)
  refine explained.moved orderly under (answer_moves waits around _) stirs.settings.2 ?_ site.ping
  intro k a there paused
  rcases orderly.sent stirs trivial there with same | ⟨m, sent, ordinary, _⟩
  · rw [same] at paused
    exact .inl ⟨paused, fun other => by cases phase.symm.trans other⟩
  · have own := Message.subject_name (Traffic.message?_sent? (m := control _ _ _ _) rfl sent).1
    have sound := (kept.order.course.reached (m := .within .pause) (by rw [phase]; rfl)).error
    refine .inr ⟨ordinary, own.trans (Swap.oldName_eq kept.order.sensible), ?_⟩
    simp only [Swap.answer, phase]
    exact ⟨rfl, .inl sound⟩

/-- Every runtime of the agent is told to go on. -/
theorem resume_explained (orderly : site.Orderly) (explained : site.Explained) (under : site.call = some (o, s))
    (phase : s.phase = .resuming) (id : String) (around : Surroundings)
    (early : around.moment < s.backSince + millis Swap.resumeBudgetMs)
    (kept : (site.send o s (control s.session.oldName .resume id around.time) (some Swap.resumeBudgetMs)
      around).bus.stats.dropped = site.bus.stats.dropped) :
    (site.send o s (control s.session.oldName .resume id around.time) (some Swap.resumeBudgetMs)
      around).Explained := by
  have waits : s.errand.isSome = true := by rw [Swap.errand, phase]; rfl
  have alive := (back_alive s around Swap.resumeBudgetMs).mpr early
  have stirs := publish_stirs orderly.sound (contextFor s (some Swap.resumeBudgetMs) around).2
    (contextFor s (some Swap.resumeBudgetMs) around).1 around (control s.session.oldName .resume id around.time)
  refine explained.moved orderly under (answer_moves waits around _) stirs.settings.2 ?_ site.ping
  intro k a there paused
  have before : a.pausedAfter (site.bus.queueOf (k + 1)) = true := by
    refine orderly.unpaused stirs trivial there (fun subject m sent => ?_) paused
    obtain ⟨_, payload⟩ := Traffic.message?_sent? (m := control _ _ _ _) rfl sent
    rw [Message.pauses_payload payload, control_pauses]
  refine .inl ⟨before, fun _ own => ?_⟩
  obtain ⟨ordinary, _⟩ := explained k a there before
  have came := orderly.delivered stirs there (m := control s.session.oldName .resume id around.time) ?_ ordinary kept
  · rw [came, AgentRuntime.pausedAfter_concat, control_pauses] at paused
    cases paused
  · rw [Traffic.sent?, alive, own]
    rfl

theorem ask_explained (orderly : site.Orderly) (explained : site.Explained) (under : site.call = some (o, s))
    (phase : s.phase = .asking) (id inboxId : String) (around : Surroundings) :
    (site.ask o s (control s.newName .ping id around.time) inboxId around).Explained := by
  have waits : s.errand.isSome = true := by rw [Swap.errand, phase]; rfl
  have other : s.phase ≠ .resuming := fun other => by cases phase.symm.trans other
  unfold ask
  split
  · have stirs := Exchange.ask_stirs (e := { bus := site.bus }) orderly.sound s.context around
      (control s.newName .ping id around.time) (millis site.coordinator.pingTimeoutMs) inboxId
    have unpaused : ∀ (k : Nat) (a : AgentRuntime), site.runtimes[k]? = some a → _ → _ := fun k a there =>
      orderly.unpaused stirs trivial there fun subject m sent => by
        obtain ⟨_, payload⟩ := Traffic.message?_sent? (m := control _ _ _ _) rfl sent
        rw [Message.pauses_payload payload, control_pauses]
    dsimp only
    split
    · exact explained.unmoved stirs.settings.2 unpaused _
    · refine explained.moved orderly under (answer_moves waits around _) stirs.settings.2 ?_ site.ping
      exact fun k a there paused => .inl ⟨unpaused k a there paused, fun resuming => absurd resuming other⟩
  · rename_i r _
    split
    · refine explained.moved orderly under (answer_moves waits around _) rfl ?_ none
      exact fun k a there paused => .inl ⟨paused, fun resuming => absurd resuming other⟩
    · exact explained

theorem turn_explained (orderly : site.Orderly) (explained : site.Explained) (around : Surroundings)
    (messageId inboxId : String)
    (kept : (site.turn around messageId inboxId).bus.stats.dropped = site.bus.stats.dropped)
    (early : site.InTime (.turn around messageId inboxId)) :
    (site.turn around messageId inboxId).Explained := by
  unfold turn at kept ⊢
  cases under : site.call with
  | none => exact explained
  | some call =>
    obtain ⟨o, s⟩ := call
    rw [under] at kept
    dsimp only at kept ⊢
    cases ended : (⟨.ok s, site.coordinator⟩ : Call).outcome? with
    | some outcome =>
      obtain ⟨_, order⟩ := orderly.kept o s under
      exact over_explained explained under ended order.fits.oldName
    | none =>
      rw [ended] at kept
      dsimp only at kept ⊢
      cases errand : s.errand with
      | none =>
        have moves := step_moves (c := site.coordinator) errand around
        refine explained.moved orderly under moves rfl (fun k a there paused => .inl ⟨paused, fun phase => ?_⟩)
          site.ping
        rw [Swap.errand, phase] at errand
        cases errand
      | some errand' =>
        rw [errand] at kept
        rcases Swap.errand_phase errand with ⟨phase, rfl⟩ | ⟨phase, rfl⟩ | ⟨phase, rfl⟩
        · exact tell_explained orderly explained under phase messageId around
        · exact ask_explained orderly explained under phase messageId inboxId around
        · exact resume_explained orderly explained under phase messageId around (early _ under phase) kept

/-- A runtime that takes a message makes of its flag what it would have made of it later. -/
theorem Explained.taken (explained : site.Explained) (there : site.runtimes[k]? = some a)
    (done : site.bus.receive (k + 1) = some (m, bus)) {a' : AgentRuntime} (name : a'.name = a.name)
    (flag : ∀ queue, a'.pausedAfter queue = a.pausedAfter (m :: queue)) :
    Explained { site with bus, runtimes := site.runtimes.set k a' } := by
  obtain ⟨own, others⟩ := Bus.receive_queues done
  have lead := (Bus.receive_steady done).lead
  intro j b there' paused
  dsimp only [Bus.subjectFor] at *
  rw [lead]
  by_cases same : j = k
  · subst same
    have within := (List.getElem?_eq_some_iff.mp there).1
    rw [List.getElem?_set_self within] at there'
    cases there'
    rw [flag, ← own] at paused
    rw [name]
    exact explained j a there paused
  · rw [List.getElem?_set_ne (Ne.symm same)] at there'
    rw [others (j + 1) (fun equal => same (Nat.succ_inj.mp equal))] at paused
    exact explained j b there' paused

theorem serve_explained (orderly : site.Orderly) (explained : site.Explained) (runtime : Nat) (around : Surroundings)
    (messageId : String) : (site.serve runtime around messageId).Explained := by
  unfold serve
  split
  · rename_i a m bus there done
    have steady := Bus.receive_steady done
    have name := receive_name a m
    dsimp only
    split
    · have stirs := reply_stirs (steady.sound orderly.sound) around.tokens.fresh.2 { token := around.tokens.fresh.1 }
        around m messageId Reply.ok.encode
      generalize bus.reply around.tokens.fresh.2 { token := around.tokens.fresh.1 } around.moment m
        (m.replyWith messageId around.time Reply.ok.encode) = replied at *
      have name := (answered_name _ replied.1).trans name
      have taken := explained.taken there done name fun queue =>
        (AgentRuntime.answered_pausedAfter replied.1).trans AgentRuntime.receive_pausedAfter
      have served := orderly.served steady there name
      refine taken.unmoved stirs.settings.2 (fun j b there' => ?_) site.ping
      refine served.unpaused stirs trivial there' fun subject answer sent => ?_
      dsimp only [Traffic.sent?] at sent
      split at sent
      · obtain ⟨inbox, _, same⟩ := Option.map_eq_some_iff.mp sent
        cases same
        rfl
      · cases sent
    · exact explained.taken there done name fun _ => AgentRuntime.receive_pausedAfter
  · exact explained

theorem act_explained (orderly : site.Orderly) (explained : site.Explained) (h : Happening)
    (kept : h.isTurn = true → (site.act h).bus.stats.dropped = site.bus.stats.dropped) (early : site.InTime h) :
    (site.act h).Explained := by
  cases h with
  | launch name => exact launch_explained orderly explained name
  | place o => exact place_explained explained o
  | turn around messageId inboxId =>
    exact turn_explained orderly explained around messageId inboxId (kept rfl) early
  | serve runtime around messageId => exact serve_explained orderly explained runtime around messageId

theorem run_explained (orderly : site.Orderly) (explained : site.Explained) {happenings : List Happening}
    (lossless : site.Lossless happenings) : (site.run happenings).Orderly ∧ (site.run happenings).Explained := by
  induction happenings generalizing site with
  | nil => exact ⟨orderly, explained⟩
  | cons h rest ih =>
    obtain ⟨kept, early, lossless⟩ := lossless
    exact ih (act_orderly orderly h) (act_explained orderly explained h kept early) lossless

/-- After a call has completed and all messages were handled, the successor is in service, and no runtime of it is
paused, unless an earlier call took it out of service. -/
theorem successor_goes_on (config : BusConfig) (c : Coordinator) (made : c.registry.Made) (happenings : List Happening)
    (lossless : (opened config c).Lossless happenings) {o : Order} {outcome : Outcome}
    (idle : ((opened config c).run happenings).call = none)
    (latest : ((opened config c).run happenings).returned.getLast? = some (o, outcome))
    (completed : outcome.isCompleted = true)
    (handled : ∀ s ∈ ((opened config c).run happenings).bus.subscriptions, s.queue = [])
    (unretired : ¬ ((opened config c).run happenings).Retired o.newName) :
    (∃ a, ((opened config c).run happenings).coordinator.registry.agents.get? o.newName = some a ∧
      a.status = .active) ∧
    ∀ a ∈ ((opened config c).run happenings).runtimes, a.name = o.newName → a.paused = false := by
  obtain ⟨orderly, explained⟩ := run_explained (opened_orderly config made) (by intro k a there; cases there) lossless
  generalize (opened config c).run happenings = site at *
  refine ⟨orderly.latest idle o outcome latest completed, fun a there own => ?_⟩
  obtain ⟨k, here⟩ := List.getElem?_of_mem there
  obtain ⟨s, on, place, _, _⟩ := orderly.listener here
  have queue := orderly.sound.queueOf on
  rw [place, handled s on] at queue
  cases paused : a.paused with
  | false => rfl
  | true =>
    obtain ⟨_, retired | ⟨_, _, under, _⟩⟩ := explained k a here (by rw [queue]; exact paused)
    · exact absurd (own ▸ retired) unretired
    · cases idle.symm.trans under

end Site

namespace Sample

/-- The agent of one name is replaced by that of another, and both runtimes take what comes. -/
def shift (oldName newName session inboxId : String) : List Happening :=
  let turn : Happening := .turn { time := ⟨2, 0⟩ } "message" inboxId
  .place { order with oldName, newName, session } :: List.replicate 14 turn ++
    [.serve 0 { time := ⟨3, 0⟩ } "answer", .serve 1 { time := ⟨3, 0⟩ } "answer"] ++ List.replicate 12 turn

/-- The elder gives way to the heir. -/
def forth : List Happening := .launch "elder" :: .launch "heir" :: shift "elder" "heir" "forth" "first"

/-- The heir then gives way to the elder. -/
def andBack : List Happening := forth ++ shift "heir" "elder" "back" "second"

end Sample

namespace Site

theorem successor_goes_on_after_shift :
    ∃ o outcome, ((opened {} Sample.coordinator).run Sample.forth).returned.getLast? = some (o, outcome) ∧
      outcome.isCompleted = true ∧
      ((∃ a, ((opened {} Sample.coordinator).run Sample.forth).coordinator.registry.agents.get? o.newName = some a ∧
          a.status = .active) ∧
        ∀ a ∈ ((opened {} Sample.coordinator).run Sample.forth).runtimes, a.name = o.newName → a.paused = false) ∧
      ((opened {} Sample.coordinator).run Sample.forth).runtimes = [⟨"elder", true, 0⟩, ⟨"heir", false, 1⟩] := by
  have lossless : (opened {} Sample.coordinator).Lossless Sample.forth := by decide +kernel
  have idle : ((opened {} Sample.coordinator).run Sample.forth).call.isNone = true := by decide +kernel
  have handled : ∀ s ∈ ((opened {} Sample.coordinator).run Sample.forth).bus.subscriptions, s.queue = [] := by
    decide +kernel
  have unretired : ¬ ((opened {} Sample.coordinator).run Sample.forth).Retired "heir" := by decide +kernel
  have shown : (((opened {} Sample.coordinator).run Sample.forth).returned.getLast?.map fun call =>
      (call.1.newName, call.2.isCompleted)) = some ("heir", true) := by decide +kernel
  obtain ⟨⟨o, outcome⟩, latest, same⟩ := Option.map_eq_some_iff.mp shown
  obtain ⟨name, completed⟩ := Prod.mk.inj same
  rw [← name] at unretired
  exact ⟨o, outcome, latest, completed,
    successor_goes_on {} Sample.coordinator Sample.made Sample.forth lossless (Option.isNone_iff_eq_none.mp idle) latest
      completed handled unretired, by decide +kernel⟩

/-- The elder comes into service again, and its runtime stays paused. -/
theorem returner_stays_paused :
    (opened {} Sample.coordinator).Lossless Sample.andBack ∧
      (((opened {} Sample.coordinator).run Sample.andBack).returned.getLast?.map fun call =>
        (call.1.newName, call.2.isCompleted)) = some ("elder", true) ∧
      (((opened {} Sample.coordinator).run Sample.andBack).coordinator.registry.agents.get? "elder").map (·.status) =
        some .active ∧
      (∀ s ∈ ((opened {} Sample.coordinator).run Sample.andBack).bus.subscriptions, s.queue = []) ∧
      ((opened {} Sample.coordinator).run Sample.andBack).runtimes = [⟨"elder", true, 1⟩, ⟨"heir", true, 1⟩] := by
  refine ⟨?_, ?_, ?_, ?_, ?_⟩
  all_goals decide +kernel

end Site
end Handover
