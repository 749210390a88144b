import Handover.Proofs.Call.Atomicity
import Handover.Proofs.Crowd
import Handover.Proofs.Site.Pauses
import Handover.Proofs.Swap.Burden

/-!
# What a call tells the agents

A call tells the old agent to pause, asks the new one whether it is alive, and tells the old one to go on if it is
rolled back. The state of a swap shows which of these it has done: `Swap.said`. Every turn adds to it what the swap
waited for, so what a call has sent is read off its record when it is over.
-/

namespace Handover

def Errand.recipient : Errand → String
  | send recipient .. | ask recipient _ => recipient

def Errand.command : Errand → Command
  | send _ command _ | ask _ command => command

/-- How long the context of its own lasts in which a command is sent, if it is. -/
def Errand.budgetMs? : Errand → Option Nat
  | send _ _ budgetMs => budgetMs
  | ask .. => none

/-- What a runtime makes of its flag when it is given the command. -/
def Command.pauses (paused : Bool) : Command → Bool
  | pause => true
  | resume => false
  | ping => paused

namespace Swap
variable {s s' : Swap} {c c' : Coordinator} {around : Surroundings} {heard : Except Error (Option Message)}
  {stage : SwapStage} {e : Error}

/-- The swap has asked the new agent, and the wait for the answer is over. -/
def HasAsked (s : Swap) : Prop := SwapStage.verify.text ∈ s.session.stepNames ∧ s.phase ≠ .asking

/-- The swap has told the old agent to go on. -/
def HasResumed (s : Swap) : Prop :=
  s.oldPaused = true ∧ s.error.isSome = true ∧ (s.phase = .closing ∨ s.phase = .finished)

instance (s : Swap) : Decidable s.HasAsked := inferInstanceAs (Decidable (_ ∧ _))

instance (s : Swap) : Decidable s.HasResumed := inferInstanceAs (Decidable (_ ∧ _))

def said (s : Swap) : List Errand :=
  (if s.oldPaused then [.send s.session.oldName .pause none] else []) ++
    (if s.HasAsked then [.ask s.session.newName .ping] else []) ++
      if s.HasResumed then [.send s.session.oldName .resume (some resumeBudgetMs)] else []

theorem said_same (terms : s'.terms = s.terms) (paused : s'.oldPaused = s.oldPaused)
    (asked : s'.HasAsked ↔ s.HasAsked) (resumed : s'.HasResumed ↔ s.HasResumed) : s'.said = s.said := by
  simp only [Swap.terms, Session.heading, Prod.mk.injEq] at terms
  obtain ⟨_, _, _, _, oldName, newName, _⟩ := terms
  simp only [said, paused, asked, resumed, oldName, newName]

theorem stepNames_of_lines {left : List SwapStage} {current : Option SwapStage} {under : StepStatus}
    (lines : s.session.lines = Milestone.linesOf left current under) :
    s.session.stepNames = (left ++ current.toList).map SwapStage.text := by
  rw [Session.stepNames_eq, lines]
  simp [Milestone.linesOf, Function.comp_def]

theorem verify_text_mem {stages : List SwapStage} :
    SwapStage.verify.text ∈ stages.map SwapStage.text ↔ SwapStage.verify ∈ stages := by
  rw [List.mem_map]
  constructor
  · rintro ⟨stage, there, same⟩
    exact SwapStage.text_injective same ▸ there
  · exact fun there => ⟨_, there, rfl⟩

theorem arrive_stepNames (s : Swap) (stage : SwapStage) (now : Instant) :
    (s.arrive stage now).stepNames = s.session.stepNames ++ [stage.text] :=
  Session.addStep_stepNames _ _ _

theorem closed_stepNames (s : Swap) (now : Instant) : (s.closed now).stepNames = s.session.stepNames := by
  unfold closed
  split
  · rfl
  · split <;> exact Session.endWith_stepNames _ _ _ _

theorem not_resumed (early : s.phase ≠ .closing ∧ s.phase ≠ .finished) : ¬ s.HasResumed := by
  rintro ⟨_, _, closing | finished⟩
  · exact early.1 closing
  · exact early.2 finished

theorem failWith_unresumed (s : Swap) (e : Error) : ¬ (s.failWith e).HasResumed := by
  rintro ⟨paused, _, late⟩
  have paused : s.oldPaused = true := paused
  simp [failWith, paused] at late

theorem failWith_asked (s : Swap) (e : Error) :
    (s.failWith e).HasAsked ↔ SwapStage.verify.text ∈ s.session.stepNames := by
  constructor
  · exact fun asked => asked.1
  · intro there
    refine ⟨there, ?_⟩
    unfold failWith
    split <;> nofun

theorem failWith_said (other : s.phase ≠ .asking) (unresumed : ¬ s.HasResumed) (e : Error) :
    (s.failWith e).said = s.said := by
  refine said_same rfl rfl ?_ ?_
  · rw [failWith_asked]
    exact ⟨fun there => ⟨there, other⟩, fun asked => asked.1⟩
  · exact iff_of_false (failWith_unresumed s e) unresumed

/-- While the swap waits for the answer it has told the old agent to pause, and nothing else. -/
theorem asking_said (on : OnCourse s) (asking : s.phase = .asking) :
    SwapStage.verify.text ∈ s.session.stepNames ∧ s.oldPaused = true ∧
      s.said = [.send s.session.oldName .pause none] := by
  have reached := on.reached (m := .within .verify) (by rw [asking]; rfl)
  have names := stepNames_of_lines reached.lines
  have paused : s.oldPaused = true := reached.paused
  have unasked : ¬ s.HasAsked := fun asked => asked.2 asking
  have unresumed : ¬ s.HasResumed := not_resumed (by simp [asking])
  refine ⟨?_, paused, ?_⟩
  · rw [names, verify_text_mem]
    decide
  · simp [said, paused, unasked, unresumed]

theorem answered_said (on : OnCourse s) (asking : s.phase = .asking) (session : s'.session = s.session)
    (paused : s'.oldPaused = s.oldPaused) (asked : s'.HasAsked) (unresumed : ¬ s'.HasResumed) :
    s'.said = s.said ++ s.errand.toList := by
  obtain ⟨_, was, before⟩ := asking_said on asking
  have waits : s.errand = some (.ask s.session.newName .ping) := by rw [errand, asking]; rfl
  rw [before, waits]
  simp [said, session, paused, was, asked, unresumed]

theorem told_said (on : OnCourse s) (named : s.oldName = s.session.oldName) (telling : s.phase = .telling) :
    said { s with oldPaused := true, phase := .leaving .pause } = s.said ++ s.errand.toList := by
  have reached := on.reached (m := .within .pause) (by rw [telling]; rfl)
  have paused : s.oldPaused = false := reached.paused
  have absent : SwapStage.verify.text ∉ s.session.stepNames := by
    rw [stepNames_of_lines reached.lines, verify_text_mem]
    decide
  have waits : s.errand = some (.send s.session.oldName .pause none) := by rw [errand, telling, named]
  have before : s.said = [] := by
    have unasked : ¬ s.HasAsked := fun asked => absent asked.1
    have unresumed : ¬ s.HasResumed := not_resumed (by simp [telling])
    simp [said, paused, unasked, unresumed]
  rw [before, waits]
  have unasked : ¬ HasAsked { s with oldPaused := true, phase := .leaving .pause } := fun asked => absent asked.1
  have unresumed : ¬ HasResumed { s with oldPaused := true, phase := .leaving .pause } :=
    not_resumed (by simp)
  simp [said, unasked, unresumed]

theorem resumed_said (on : OnCourse s) (resuming : s.phase = .resuming) :
    said { s with phase := .closing } = s.said ++ s.errand.toList := by
  obtain ⟨paused, failed⟩ := on.turnedBack (.inr (.inr resuming))
  have waits : s.errand = some (.send s.session.oldName .resume (some resumeBudgetMs)) := by
    rw [errand, resuming]
  have asked : HasAsked { s with phase := .closing } ↔ s.HasAsked := by simp [HasAsked, resuming]
  have resumed : HasResumed { s with phase := .closing } := ⟨paused, failed, .inl rfl⟩
  have before : ¬ s.HasResumed := not_resumed (by simp [resuming])
  rw [waits, said, said, if_pos resumed, if_neg before]
  simp [asked]

theorem entered_said (on : OnCourse s) (phase : s.phase = .entering stage) (now : Instant) :
    said { s with
      session := s.arrive stage now
      phase := if stage = .verify then .asking else .working stage } = s.said := by
  have reached := on.reached (m := .entering stage) (by rw [phase]; rfl)
  have names := stepNames_of_lines reached.lines
  refine said_same ?_ rfl ?_ (iff_of_false (not_resumed ?_) (not_resumed (by simp [phase])))
  · simp [terms, arrive, Session.heading, Session.addStep]
  · -- A swap that enters the stage of the ping has none behind it, and waits for the answer now.
    by_cases verify : stage = .verify
    · subst verify
      refine iff_of_false (fun asked => asked.2 rfl) fun asked => ?_
      have there := asked.1
      rw [names, verify_text_mem] at there
      exact absurd there (by decide)
    · have other : stage.text ≠ SwapStage.verify.text := fun same => verify (SwapStage.text_injective same)
      simp [HasAsked, arrive_stepNames, verify, phase, Ne.symm other]
  · by_cases verify : stage = .verify <;> simp [verify]

theorem stops_said (on : OnCourse s) (why : Stops s c around heard e) :
    (s.failWith e).said = s.said ++ s.errand.toList := by
  -- Of all the places where a swap may fail it is told something only where it waits for the answer.
  have silent : s.phase ≠ .asking → s.phase ≠ .telling → s.phase ≠ .resuming → s.phase ≠ .closing →
      s.phase ≠ .finished → (s.failWith e).said = s.said ++ s.errand.toList := by
    intro asking telling resuming closing finished
    have none : s.errand = none := by
      unfold errand
      split <;> simp_all
    rw [none, failWith_said asking (not_resumed ⟨closing, finished⟩)]
    simp
  cases why with
  | unverified asking =>
    have there := (asking_said on asking).1
    exact answered_said on asking rfl rfl ((failWith_asked s e).mpr there) (failWith_unresumed s e)
  | gaveUp heeds =>
    unfold heedsCaller at heeds
    split at heeds
    · cases heeds
    · rename_i phase
      exact silent (by simp [phase]) (by simp [phase]) (by simp [phase]) (by simp [phase]) (by simp [phase])
    · rename_i phase
      exact silent (by simp [phase]) (by simp [phase]) (by simp [phase]) (by simp [phase]) (by simp [phase])
    · cases heeds
  | barred phase | unpaused phase | unenrolled phase | empty phase | unhanded phase | inactive phase =>
    exact silent (by simp [phase]) (by simp [phase]) (by simp [phase]) (by simp [phase]) (by simp [phase])

/-- Every turn adds to what the swap has told the agents what it waited for. -/
theorem moves_said (on : OnCourse s) (sensible : Sensible s)
    (there : s.phase = .reviving → c.registry.agents.get? s.session.oldName ≠ none)
    (moves : Moves s c around heard s' c') : s'.said = s.said ++ s.errand.toList := by
  cases moves with
  | told phase => exact told_said on (oldName_eq sensible) phase
  | verified phase =>
    have there := (asking_said on phase).1
    exact answered_said on phase rfl rfl ⟨there, by simp⟩ (not_resumed (by simp))
  | stopped why => exact stops_said on why
  | resumed phase => exact resumed_said on phase
  | entered phase =>
    rw [entered_said on phase, errand, phase]
    exact (List.append_nil _).symm
  | left phase =>
    have same : s.errand = none := by rw [errand, phase]
    rw [same, Option.toList_none, List.append_nil]
    refine said_same rfl rfl ?_ (iff_of_false (not_resumed (by simp)) (not_resumed (by simp [phase])))
    simp [HasAsked, stepDone, phase]
  | won phase done =>
    have same : s.errand = none := by rw [errand, phase]
    have sound := (on.reached (m := .leaving .finalize) (by rw [phase]; rfl)).error
    have names := (Session.complete_stepNames done).trans (Session.completeStep_stepNames _ _ _)
    have heading := (Session.complete_heading done).trans (Session.completeStep_heading _ _ _)
    rw [same, Option.toList_none, List.append_nil]
    refine said_same (by simp [terms, heading]) rfl ?_ (iff_of_false ?_ (not_resumed (by simp [phase])))
    · simp [HasAsked, names, phase]
    · rintro ⟨_, failed, _⟩
      simp [sound] at failed
  | unfinished phase barred => exact (unfinished_absurd on phase barred).elim
  | unrevived phase missing =>
    obtain ⟨a, found⟩ := Option.ne_none_iff_exists'.mp (there phase)
    rw [Registry.setStatus, Registry.modify_found _ _ found] at missing
    cases missing
  | closed phase =>
    have same : s.errand = none := by rw [errand, phase]
    rw [same, Option.toList_none, List.append_nil]
    refine said_same (by simp [terms, closed_heading]) rfl ?_ ?_
    · simp [HasAsked, closed_stepNames, phase]
    · simp [HasResumed, phase]
  | vanished phase =>
    have same : s.errand = none := by rw [errand, phase]
    rw [same, Option.toList_none, List.append_nil]
    exact failWith_said (s := { s with session := { s.session with
      snapshot := some (s.old.state.recordHistory (captureEntry s.session.id s.newName around.time)) } })
      (by simp [phase]) (not_resumed (by simp [phase])) _
  | rested phase =>
    have same : s.errand = none := by rcases phase with phase | phase <;> rw [errand, phase]
    rw [same]
    exact (List.append_nil _).symm
  | opened phase | captured phase | paused phase | looked phase | enrolled phase | handed phase | activated phase
  | removed phase | undone phase | revived phase =>
    have same : s.errand = none := by rw [errand, phase]
    rw [same, Option.toList_none, List.append_nil]
    refine said_same rfl rfl ?_ (iff_of_false (not_resumed (by simp)) (not_resumed (by simp [phase])))
    simp [HasAsked, Session.stepNames, phase]

theorem begun_said {r : Registry} {ctx : Context} {oldName newName id : String} {changes : Table Json}
    {now : Instant} (begun : begin? r ctx oldName newName changes id now = .ok s) : s.said = [] := by
  obtain ⟨_, _, old, _, rfl⟩ := begin?_cases begun
  rfl

theorem unpaused_unverified {left : List SwapStage} {current : Option SwapStage}
    (begun : left ++ current.toList <+: SwapStage.all) (unpaused : .pause ∉ left) :
    SwapStage.verify ∉ left ++ current.toList := by
  -- Without the pause behind it a swap is in its second stage at most, and the ping is in the fourth.
  have short : (left ++ current.toList).length ≤ 2 := by
    have behind : left <+: SwapStage.all := (List.prefix_append _ _).trans begun
    have one : left.length ≤ 1 := by
      apply Nat.le_of_not_lt
      intro further
      have among : SwapStage.all.take 2 <+: left :=
        List.prefix_of_prefix_length_le (List.take_prefix _ _) behind (by rw [List.length_take]; omega)
      exact unpaused (among.subset (by decide))
    have single : current.toList.length ≤ 1 := by cases current <;> simp
    rw [List.length_append]
    omega
  have among : left ++ current.toList <+: SwapStage.all.take 2 :=
    List.prefix_of_prefix_length_le begun (List.take_prefix _ _) (by simpa [SwapStage.all] using short)
  exact fun there => absurd (among.subset there) (by decide)

theorem over_said (on : OnCourse s) (atEnd : s.isOver = true) (paused : s.error = none → s.oldPaused = true) :
    s.said = if s.error.isNone then
        [.send s.session.oldName .pause none, .ask s.session.newName .ping]
      else if s.oldPaused then
        .send s.session.oldName .pause none ::
          ((if SwapStage.verify.text ∈ s.session.stepNames then [.ask s.session.newName .ping] else []) ++
            [.send s.session.oldName .resume (some resumeBudgetMs)])
      else [] := by
  have phase : s.phase = .finished := by simpa [isOver] using atEnd
  have asked : s.HasAsked ↔ SwapStage.verify.text ∈ s.session.stepNames := by simp [HasAsked, phase]
  obtain ⟨before, now, same, ended⟩ := on.ended atEnd
  have names : s.session.stepNames = before.session.stepNames := by
    rw [same]
    exact closed_stepNames before now
  cases error : s.error with
  | none =>
    have was := paused error
    have unresumed : ¬ s.HasResumed := by
      rintro ⟨_, failed, _⟩
      simp [error] at failed
    rcases ended with won | ⟨e, lost⟩
    · have there : SwapStage.verify.text ∈ s.session.stepNames := by
        rw [names, stepNames_of_lines won.lines, verify_text_mem]
        decide
      simp [said, was, asked, there, unresumed]
    · rw [same] at error
      cases lost.error.symm.trans error
  | some e =>
    cases was : s.oldPaused with
    | true =>
      have resumed : s.HasResumed := ⟨was, by simp [error], .inr phase⟩
      simp [said, was, asked, resumed]
    | false =>
      have unresumed : ¬ s.HasResumed := by
        rintro ⟨paused, _⟩
        cases was.symm.trans paused
      rcases ended with won | ⟨e', lost⟩
      · rw [same] at error
        cases won.error.symm.trans error
      · obtain ⟨left, current, lines, _, begun, _, unpaused⟩ := lost.lines
        have early : .pause ∉ left := by
          intro there
          rw [same] at was
          cases was.symm.trans (unpaused.mpr there)
        have absent : SwapStage.verify.text ∉ s.session.stepNames := by
          rw [names, stepNames_of_lines lines, verify_text_mem]
          exact unpaused_unverified begun early
        simp [said, was, asked, absent, unresumed]

theorem moves_retain (sensible : Sensible s) (present : c.registry.agents.get? s.session.oldName ≠ none)
    (moves : Moves s c around heard s' c') :
    s'.HasRemoved ∨ c'.registry.agents.get? s.session.oldName ≠ none := by
  have entered : ∀ name a, (c.registry.agents.insert name a).get? s.session.oldName ≠ none := by
    intro name a
    rw [Table.get?_insert]
    split
    · nofun
    · exact present
  have changed : ∀ {name f a registry}, c.registry.modify name f = .ok (a, registry) →
      registry.agents.get? s.session.oldName ≠ none := by
    intro name f a registry done
    obtain ⟨_, _, _, agents⟩ := Registry.modify_ok done
    rw [agents]
    exact entered _ _
  cases moves with
  | paused _ done | activated _ done | revived _ done => exact .inr (changed done)
  | handed _ _ done => exact .inr (changed done)
  | enrolled _ done =>
    right
    rw [(Registry.register_notes done).agents]
    exact entered _ _
  | removed => exact .inl (.inl rfl)
  | undone =>
    -- What is taken back stands under the new name, or is entered again.
    right
    unfold undo
    split
    · exact present
    · split
      · have kept := Table.get?_erase_of_ne (Ne.symm sensible.differ) c.registry.agents
        rw [Registry.unregister_agents, newName, kept]
        exact present
      · split
        · rename_i done
          rw [(Registry.restore_notes done).agents]
          exact entered _ _
        · exact present
  | _ => exact .inr present

structure Speaks (s : Swap) (c : Coordinator) : Prop where
  course : OnCourse s
  sensible : Sensible s
  /-- A swap that ends well has paused the old agent. -/
  paused : s.phase = .closing ∨ s.phase = .finished → s.error = none → s.oldPaused = true
  there : s.HasRemoved ∨ c.registry.agents.get? s.session.oldName ≠ none

theorem Speaks.reviving (speaks : Speaks s c) (reviving : s.phase = .reviving) :
    c.registry.agents.get? s.session.oldName ≠ none := by
  rcases speaks.there with removed | present
  · simp [HasRemoved, reviving] at removed
  · exact present

theorem moves_speaks (speaks : Speaks s c) (moves : Moves s c around heard s' c') : Speaks s' c' := by
  obtain ⟨course, sensible, paused, there⟩ := speaks
  have oldName : s'.session.oldName = s.session.oldName := congrArg (·.2.2.2.2.1) (moves_terms moves)
  refine ⟨moves_onCourse course moves, moves_sensible sensible moves, moves_paused course paused moves, ?_⟩
  rw [oldName]
  rcases there with removed | present
  · exact .inl (moves_removed course removed moves)
  · exact moves_retain sensible present moves

end Swap

namespace Call
variable {o : Order} {c : Coordinator} {s s' : Swap} {call : Call} {turns : List Turn} {t : Turn}
  {outcome : Outcome}

/-- What the call tells the agents at a turn. A ping counts at the turn that has the answer. -/
def tells (call : Call) : Turn → List Errand
  | .own .. =>
    match call.swap with
    | .ok s => s.errand.toList
    | .error _ => []
  | .others _ => []

def sent : Call → List Turn → List Errand
  | _, [] => []
  | call, t :: rest => call.tells t ++ sent (call.turn t) rest

/-- Others leave the old agent registered until the call has removed it. -/
def Retains (call : Call) : Turn → Prop
  | .own .. => True
  | .others c => ∀ s, call.swap = .ok s → s.HasRemoved ∨ c.registry.agents.get? s.session.oldName ≠ none

theorem sent_refused (refused : call.swap = .error e) (turns : List Turn) : call.sent turns = [] := by
  induction turns generalizing call with
  | nil => rfl
  | cons t rest ih =>
    have silent : call.tells t = [] := by cases t <;> simp [tells, refused]
    rw [sent, silent, ih (turn_refused refused t), List.nil_append]

theorem start_speaks (made : c.registry.Made) : (o.start c).Holds Swap.Speaks := by
  intro s begun
  obtain ⟨order, fits⟩ := start_kept made s begun
  have phase := (start_fits begun).2
  refine ⟨order.course, order.sensible, by simp [phase], .inr ?_⟩
  rw [fits.oldName]
  exact Option.ne_none_iff_exists'.mpr ⟨_, fits.old⟩

theorem keeps_speaks : Keeps Retains Swap.Speaks := by
  refine ⟨fun s c around heard s' c' speaks _ moves => Swap.moves_speaks speaks moves, ?_⟩
  intro s c c' speaks retained
  exact { speaks with there := retained s rfl }

theorem turn_said (speaks : call.Holds Swap.Speaks) (begun : call.swap = .ok s)
    (next : (call.turn t).swap = .ok s') : s'.said = s.said ++ call.tells t := by
  cases t with
  | own around heard =>
    have speaks := speaks s begun
    rw [turn_own begun around heard] at next
    cases next
    rw [tells, begun]
    exact Swap.moves_said speaks.course speaks.sensible speaks.reviving Swap.advance_moves
  | others c =>
    cases begun.symm.trans next
    exact (List.append_nil _).symm

theorem play_said (speaks : call.Holds Swap.Speaks) (retained : call.Always Retains turns)
    (begun : call.swap = .ok s) (ends : (call.play turns).swap = .ok s') :
    s'.said = s.said ++ call.sent turns := by
  induction turns generalizing call s with
  | nil =>
    cases begun.symm.trans ends
    exact (List.append_nil _).symm
  | cons t rest ih =>
    obtain ⟨next, turned⟩ := turn_begun begun t
    have later := ih (turn_keeps keeps_speaks speaks retained.1) retained.2 turned ends
    rw [later, turn_said speaks begun turned, sent, List.append_assoc]

end Call

namespace Outcome

def commands (o : Order) : Outcome → List Errand
  | completed _ => [.send o.oldName .pause none, .ask o.newName .ping]
  | failed _ none => []
  | failed _ (some record) =>
    if record.status = .rolledBack then
      .send o.oldName .pause none ::
        ((if "verify_new_agent" ∈ record.stepNames then [.ask o.newName .ping] else []) ++
          [.send o.oldName .resume (some Swap.resumeBudgetMs)])
    else []

/-- Whether the old agent is paused after a call that ends like this, given whether it was before. -/
def leavesPaused (paused : Bool) : Outcome → Bool
  | completed _ => true
  | failed _ none => paused
  | failed _ (some record) => if record.status = .rolledBack then false else paused

end Outcome

namespace AgentRuntime

def handle (a : AgentRuntime) (letters : List Message) : AgentRuntime :=
  letters.foldl (fun a m => (a.receive m).1) a

theorem handle_paused (a : AgentRuntime) (letters : List Message) :
    (a.handle letters).paused = a.pausedAfter letters := by
  induction letters generalizing a with
  | nil => rfl
  | cons m rest ih =>
    have later := ih (a.receive m).1
    rw [receive_pausedAfter] at later
    exact later

theorem pausedAfter_commands {letters : List Message} {commands : List Command} (paused : Bool)
    (written : letters.map Message.payload = commands.map Command.encode) :
    letters.foldl (fun paused m => m.pauses paused) paused =
      commands.foldl Command.pauses paused := by
  induction commands generalizing letters paused with
  | nil =>
    rw [List.map_nil, List.map_eq_nil_iff] at written
    rw [written]
    rfl
  | cons command rest ih =>
    obtain ⟨m, letters, rfl, payload, written⟩ := List.map_eq_cons_iff.mp written
    rw [List.foldl_cons, List.foldl_cons, ih _ written]
    have same : (Site.control "" command "" ⟨0, 0⟩).payload = m.payload := payload.symm
    rw [← Message.pauses_payload same, Site.control_pauses]
    cases command <;> rfl

end AgentRuntime

namespace Call
variable {o : Order} {c : Coordinator} {turns : List Turn} {outcome : Outcome}

theorem sent_commands (made : c.registry.Made) (retained : (o.start c).Always Retains turns)
    (ended : ((o.start c).play turns).outcome? = some outcome) :
    (o.start c).sent turns = outcome.commands o := by
  cases begun : (o.start c).swap with
  | error e =>
    rw [outcome_refused (play_refused begun turns)] at ended
    cases ended
    exact sent_refused begun turns
  | ok s₀ =>
    obtain ⟨s, ends⟩ := play_begun begun turns
    obtain ⟨atEnd, given⟩ := outcome_begun ends ended
    have speaks := play_keeps keeps_speaks (start_speaks made) retained s ends
    have fits := play_had (fun _ _ _ _ _ _ fits moves => moves_fits fits moves) begun (start_fits begun).1 ends
    have said := play_said (start_speaks made) retained begun ends
    rw [Swap.begun_said begun, List.nil_append] at said
    have phase : s.phase = .finished := by simpa [Swap.isOver] using atEnd
    rw [← said, Swap.over_said speaks.course atEnd (speaks.paused (.inr phase)), given, fits.oldName, fits.newName]
    cases error : s.error with
    | none => rfl
    | some e =>
      have status := Swap.failed_status speaks.course atEnd error
      cases paused : s.oldPaused with
      | true =>
        simp only [Outcome.commands, status, paused, if_true]
        rfl
      | false => simp [Outcome.commands, status, paused]

theorem resume_alive {errand : Errand} (there : errand ∈ outcome.commands o) (resumes : errand.command = .resume)
    (s : Swap) (around : Surroundings) :
    (Site.contextFor s errand.budgetMs? around).1.check (Site.contextFor s errand.budgetMs? around).2
      around.moment = .ok () ↔ around.moment < s.backSince + millis Swap.resumeBudgetMs := by
  -- Of all that is sent the resume alone has a context of its own, whatever became of the caller's.
  have own : errand.budgetMs? = some Swap.resumeBudgetMs := by
    cases outcome with
    | completed record =>
      simp only [Outcome.commands, List.mem_cons, List.not_mem_nil, or_false] at there
      rcases there with rfl | rfl <;> cases resumes
    | failed e session =>
      cases session with
      | none => cases there
      | some record =>
        simp only [Outcome.commands] at there
        split at there
        · rw [List.mem_cons, List.mem_append, List.mem_singleton] at there
          rcases there with rfl | asked | rfl
          · cases resumes
          · split at asked
            · rw [List.mem_singleton] at asked
              subst asked
              cases resumes
            · cases asked
          · rfl
        · cases there
  rw [own]
  exact Site.back_alive s around Swap.resumeBudgetMs

theorem commands_leave (differ : o.newName ≠ o.oldName) (paused : Bool) :
    (((outcome.commands o).filter fun e => e.recipient = o.oldName).map Errand.command).foldl Command.pauses paused =
      outcome.leavesPaused paused := by
  unfold Outcome.commands Outcome.leavesPaused
  cases outcome with
  | completed record => simp [Errand.recipient, Errand.command, Command.pauses, differ]
  | failed e session =>
    cases session with
    | none => rfl
    | some record =>
      by_cases back : record.status = .rolledBack
      · by_cases asked : "verify_new_agent" ∈ record.stepNames <;>
          simp [Errand.recipient, Errand.command, Command.pauses, differ, back, asked]
      · simp [back]

/-- How a call ends says what it told the agents: a pause is taken back if, and only if, the call is rolled back. The
bus takes the notice whatever became of the caller, as long as the roll-back does not stall for longer than its own
context lasts. A runtime that handles what it is told is paused accordingly. -/
theorem pause_and_resume_paired (made : c.registry.Made) (retained : (o.start c).Always Retains turns)
    (ended : ((o.start c).play turns).outcome? = some outcome) :
    (o.start c).sent turns = outcome.commands o ∧
    (∀ errand ∈ (o.start c).sent turns, errand.command = .resume → ∀ s around,
      ((Site.contextFor s errand.budgetMs? around).1.check (Site.contextFor s errand.budgetMs? around).2
        around.moment = .ok () ↔ around.moment < s.backSince + millis Swap.resumeBudgetMs)) ∧
    ∀ (a : AgentRuntime) (letters : List Message),
      letters.map Message.payload =
        (((o.start c).sent turns).filter fun e => e.recipient = o.oldName).map (fun e => e.command.encode) →
      (a.handle letters).paused = outcome.leavesPaused a.paused := by
  have sent := sent_commands made retained ended
  refine ⟨sent, ?_, ?_⟩
  · intro errand there resumes s around
    rw [sent] at there
    exact resume_alive there resumes s around
  · intro a letters written
    rw [AgentRuntime.handle_paused, AgentRuntime.pausedAfter]
    rw [sent, ← Function.comp_def Command.encode Errand.command, ← List.map_map] at written
    rw [AgentRuntime.pausedAfter_commands _ written]
    cases begun : (o.start c).swap with
    | error e =>
      -- Nothing is sent, so it does not matter whether the names differ.
      rw [outcome_refused (play_refused begun turns)] at ended
      cases ended
      rfl
    | ok s =>
      have ends : ((o.start c).play []).swap = .ok s := begun
      exact commands_leave (sound_of_ends ends).differ a.paused

theorem pause_and_resume_paired_without_reply :
    (Sample.order.start Sample.coordinator).sent (Sample.turns Sample.unanswered) =
        [.send "elder" .pause none, .ask "heir" .ping, .send "elder" .resume (some 2000)] ∧
      ∀ a : AgentRuntime,
        (a.handle [Site.control "elder" .pause "1" ⟨2, 0⟩,
          Site.control "elder" .resume "2" ⟨3, 0⟩]).paused = false := by
  have retained : (Sample.order.start Sample.coordinator).Always Retains (Sample.turns Sample.unanswered) := by
    refine ⟨fun s begun => ?_, always_of_mem (fun call t there => ?_) _⟩
    · cases begun
      exact .inr (by decide)
    · rcases Sample.onward_cases there with rfl | rfl <;> trivial
  obtain ⟨e, record, ended, rolledBack, asked⟩ : ∃ e record,
      ((Sample.order.start Sample.coordinator).play (Sample.turns Sample.unanswered)).outcome? =
        some (.failed e (some record)) ∧ record.status = .rolledBack ∧
        "verify_new_agent" ∈ record.stepNames := ⟨_, _, rfl, rfl, by decide⟩
  obtain ⟨sent, _, handled⟩ := pause_and_resume_paired Sample.made retained ended
  rw [Outcome.commands, if_pos rolledBack, if_pos asked] at sent
  refine ⟨sent, fun a => ?_⟩
  rw [handled a _ (by rw [sent]; rfl), Outcome.leavesPaused, if_pos rolledBack]

end Call
end Handover
