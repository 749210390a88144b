import Handover.Proofs.Call
import Handover.Proofs.Coordinator
import Handover.Proofs.Wording

/-!
# The record that a call gives back

A call that was begun ends with a closed record that shows how far it came and why it failed, whatever others
do in between.
-/

namespace Handover

/-- The record shows what became of the call. -/
structure Outcome.Audited (outcome : Outcome) (record : Session) : Prop where
  terminal : record.isTerminal = true
  captured : record.snapshot.isSome = true
  ended : record.completedAt.isSome = true
  lasted : ∃ d, record.duration = some d ∧ 1 ≤ d.toNanos
  settled : ∀ x ∈ record.steps, x.status ≠ .running
  begun : record.steps ≠ []
  ordered : record.steps.map (·.name) <+: SwapStage.all.map SwapStage.text
  thorough : ∀ x ∈ record.steps.dropLast, x.status = .completed
  completed_iff : record.status = .completed ↔
    record.lines = SwapStage.all.map fun stage => (stage.text, StepStatus.completed)
  unmarred : record.status = .completed → outcome = .completed record ∧ record.error = none
  rolledBack_iff : record.status = .rolledBack ↔
    (∃ e, outcome = .failed e (some record)) ∧ (SwapStage.pause.text, StepStatus.completed) ∈ record.lines
  failed_iff : record.status = .failed ↔
    (∃ e, outcome = .failed e (some record)) ∧ (SwapStage.pause.text, StepStatus.completed) ∉ record.lines
  explained : ∀ e, outcome = .failed e (some record) → record.error = some e.text ∧
    ∃ x, record.steps.getLast? = some x ∧
      (x.status = .completed ∨ (x.status = .failed ∧ x.error = some e.text))

theorem Milestone.left_of_linesOf {left : List SwapStage} {current : Option SwapStage}
    (all : linesOf left current .failed = SwapStage.all.map fun stage => (stage.text, StepStatus.completed)) :
    left = SwapStage.all := by
  cases current with
  | none =>
    simp only [linesOf, Option.toList_none, List.map_nil, List.append_nil] at all
    exact (List.map_inj_right fun _ _ same => SwapStage.text_injective (congrArg Prod.fst same)).mp all
  | some stage =>
    have failed : (stage.text, StepStatus.failed) ∈ linesOf left (some stage) .failed := by simp [linesOf]
    rw [all] at failed
    simp at failed

namespace Session
variable {record : Session} {left : List SwapStage} {current : Option SwapStage}

theorem line_mem {x : SwapStep} (lines : record.lines = Milestone.linesOf left current .failed)
    (there : x ∈ record.steps) : x.line ∈ Milestone.linesOf left current .failed := by
  rw [← lines]
  exact List.mem_map_of_mem there

theorem steps_settled (lines : record.lines = Milestone.linesOf left current .failed) :
    ∀ x ∈ record.steps, x.status ≠ .running := by
  intro x there running
  have line := line_mem lines there
  simp [Milestone.linesOf, SwapStep.line, running] at line

theorem steps_begun (lines : record.lines = Milestone.linesOf left current .failed)
    (shown : left ++ current.toList ≠ []) : record.steps ≠ [] := by
  intro none
  apply shown
  have empty : Milestone.linesOf left current .failed = [] := by simp [← lines, Session.lines, none]
  simpa [Milestone.linesOf] using empty

theorem steps_ordered (lines : record.lines = Milestone.linesOf left current .failed)
    (order : left ++ current.toList <+: SwapStage.all) :
    record.steps.map (·.name) <+: SwapStage.all.map SwapStage.text := by
  have names : record.steps.map (·.name) = (left ++ current.toList).map SwapStage.text := by
    have firsts := congrArg (List.map Prod.fst) lines
    simpa [Session.lines, SwapStep.line, Milestone.linesOf, Function.comp_def] using firsts
  rw [names]
  exact order.map _

theorem steps_thorough (lines : record.lines = Milestone.linesOf left current .failed) :
    ∀ x ∈ record.steps.dropLast, x.status = .completed := by
  have before : record.steps.dropLast.map SwapStep.line = (Milestone.linesOf left current .failed).dropLast := by
    rw [← lines, Session.lines, List.map_dropLast]
  intro x there
  have line : x.line ∈ (Milestone.linesOf left current .failed).dropLast := before ▸ List.mem_map_of_mem there
  have completed : ∀ l ∈ left.map fun stage => (stage.text, StepStatus.completed), l.2 = .completed := by
    simp
  cases current with
  | none =>
    simp only [Milestone.linesOf, Option.toList_none, List.map_nil, List.append_nil] at line
    exact completed _ (List.dropLast_subset _ line)
  | some stage =>
    simp only [Milestone.linesOf, Option.toList_some, List.map_cons, List.map_nil, List.dropLast_concat] at line
    exact completed _ line

end Session

namespace Swap
variable {s s' : Swap} {c c' : Coordinator} {around : Surroundings} {heard : Except Error (Option Message)} {e : Error}

theorem won_audited (won : Won s) : (Outcome.completed s.session).Audited s.session := by
  have lines : s.session.lines = Milestone.linesOf SwapStage.all none .failed := won.lines
  exact {
    terminal := by simp [Session.isTerminal, won.status, SwapStatus.isTerminal]
    captured := won.captured
    ended := won.ended
    lasted := won.lasted
    settled := Session.steps_settled lines
    begun := Session.steps_begun lines (by decide)
    ordered := Session.steps_ordered lines (List.prefix_refl _)
    thorough := Session.steps_thorough lines
    completed_iff := by simp [won.status, won.lines, Milestone.linesOf]
    unmarred := fun _ => ⟨rfl, won.unmarred⟩
    rolledBack_iff := by simp [won.status]
    failed_iff := by simp [won.status]
    explained := nofun }

theorem closed_steps (lost : Lost e s) (now : Instant) :
    ∀ x ∈ (s.closed now).steps, x.status = .completed ∨ (x.status = .failed ∧ x.error = some e.text) := by
  obtain ⟨left, current, lines, _⟩ := lost.lines
  rw [lost.closed_eq]
  intro x there
  simp only [Session.finish, List.mem_map] at there
  obtain ⟨y, there, rfl⟩ := there
  have line : y.line ∈ Milestone.linesOf left current := by
    rw [← lines]
    exact List.mem_map_of_mem there
  unfold Session.closeStep
  split
  · exact .inr ⟨rfl, rfl⟩
  · rename_i settled
    left
    simp only [Milestone.linesOf, List.mem_append, List.mem_map, SwapStep.line, Prod.mk.injEq] at line
    rcases line with ⟨_, _, _, completed⟩ | ⟨_, _, _, running⟩
    · exact completed.symm
    · simp [SwapStep.isRunning, ← running] at settled

theorem lost_audited (lost : Lost e s) (now : Instant) :
    (Outcome.failed e (some (s.closed now))).Audited (s.closed now) := by
  obtain ⟨left, current, shown, nonempty, order, unfinished, paused⟩ := lost.lines
  have lines := lost.closed_lines shown now
  have status : (s.closed now).status = if s.oldPaused then .rolledBack else .failed := by
    simp [lost.closed_eq, Session.finish]
  have pause : (SwapStage.pause.text, StepStatus.completed) ∈ (s.closed now).lines ↔ s.oldPaused = true := by
    rw [lines, Milestone.completed_mem_linesOf (by decide), paused]
  have steps := Session.steps_begun lines nonempty
  exact {
    terminal := by
      unfold Session.isTerminal
      rw [status]
      split <;> rfl
    captured := by simpa [closed_snapshot] using lost.captured
    ended := by simp [lost.closed_eq, Session.finish]
    lasted := ⟨_, by simp only [lost.closed_eq, Session.finish]; rfl, Instant.elapsed_pos _ _⟩
    settled := Session.steps_settled lines
    begun := steps
    ordered := Session.steps_ordered lines order
    thorough := Session.steps_thorough lines
    completed_iff := by
      constructor
      · intro completed
        rw [status] at completed
        split at completed <;> cases completed
      · intro all
        rw [lines] at all
        exact (unfinished (Milestone.left_of_linesOf all)).elim
    unmarred := by
      intro completed
      rw [status] at completed
      split at completed <;> cases completed
    rolledBack_iff := by
      rw [status, pause]
      cases s.oldPaused <;> simp
    failed_iff := by
      rw [status, pause]
      cases s.oldPaused <;> simp
    explained := by
      intro e' same
      cases same
      refine ⟨by simp [lost.closed_eq, Session.finish], _, List.getLast?_eq_some_getLast steps, ?_⟩
      exact closed_steps lost now _ (List.getLast_mem steps) }

theorem over_audited (on : OnCourse s) (atEnd : s.isOver = true) :
    (match s.error with
      | none => Outcome.completed s.session
      | some e => .failed e (some s.session)).Audited s.session := by
  obtain ⟨before, now, rfl, won | ⟨e, lost⟩⟩ := on.ended atEnd
  · simp only [won.error, won.closed_eq]
    exact won_audited won
  · simp only [lost.error]
    exact lost_audited lost now

theorem moves_text (on : OnCourse s) (worded : ∀ e, heard = .error e → e.text ≠ "")
    (said : ∀ e, s.error = some e → e.text ≠ "") (moves : Moves s c around heard s' c') :
    ∀ e, s'.error = some e → e.text ≠ "" := by
  cases moves with
  | stopped why =>
    rintro _ ⟨⟩
    exact stops_text on worded why
  | vanished =>
    rintro _ ⟨⟩
    exact Error.agentMissing_text _
  | unfinished phase barred => exact (unfinished_absurd on phase barred).elim
  | _ => exact said

theorem failWith_isOver (s : Swap) (e : Error) : (s.failWith e).isOver = false := by
  cases paused : s.oldPaused <;> simp [failWith, isOver, paused]

theorem ends_stored (moves : Moves s c around heard s' c') (before : s.isOver = false) (atEnd : s'.isOver = true) :
    c'.sessions.get? s'.session.id = some s'.session ∨
      (c'.sessions.get? s'.session.id = none ∧
        c.maxSessions < (c.sessions.insert s'.session.id s'.session).length) := by
  cases moves with
  | closed => exact Coordinator.storeSession_get? c (s.closed around.time)
  | entered =>
    simp only [isOver] at atEnd
    split at atEnd <;> cases atEnd
  | stopped | vanished | unfinished => simp [failWith_isOver] at atEnd
  | rested =>
    rw [before] at atEnd
    cases atEnd
  | _ => simp [isOver] at atEnd

end Swap

/-- What the bus gives at the turn is no error without a text. -/
def Turn.Worded : Turn → Prop
  | .own _ heard => ∀ e, heard = .error e → e.text ≠ ""
  | .others _ => True

/-- What a call gets of the bus of this library: nothing if it waits for nothing, what becomes of a notice, and what
becomes of a request. -/
inductive Bus.Gives : Except Error (Option Message) → Prop where
  | nothing : Gives (.ok none)
  | published (b : Bus) (ts : Tokens) (ctx : Context) (now : Moment) (m : Message) :
      Gives ((b.publish ts ctx now m).1.map fun _ => none)
  | refused {b b' : Bus} {ts : Tokens} {ctx : Context} {now : Moment} {m : Message} {timeout : Nat} {inbox : String}
      {e : Error} (opened : b.openRequest ts ctx now m timeout inbox = (.error e, b')) : Gives (.error e)
  | ended {b : Bus} {ts : Tokens} {now : Moment} {r : Request} {result : Except Error Message}
      (polled : b.pollRequest ts now r = some result) : Gives (result.map some)

def Turn.OnBus : Turn → Prop
  | .own _ heard => Bus.Gives heard
  | .others _ => True

section Bus
variable {b b' : Bus} {ts : Tokens} {ctx : Context} {now : Moment} {m : Message} {timeout : Nat} {inbox : String}
  {r : Request} {e : Error} {result : Except Error Message} {t : Turn}

theorem publish_worded (b : Bus) (ts : Tokens) (ctx : Context) (now : Moment) (m : Message) (around : Surroundings) :
    (Turn.own around ((b.publish ts ctx now m).1.map fun _ => none)).Worded := by
  unfold Bus.publish
  split
  · rename_i gone
    rintro _ ⟨⟩
    exact Context.check_text gone
  · exact nofun

theorem openRequest_worded (refused : b.openRequest ts ctx now m timeout inbox = (.error e, b'))
    (around : Surroundings) : (Turn.own around (.error e)).Worded := by
  rintro _ ⟨⟩
  exact Bus.openRequest_text refused

theorem pollRequest_worded (ended : b.pollRequest ts now r = some result) (around : Surroundings) :
    (Turn.own around (result.map some)).Worded := by
  cases result with
  | ok m => exact nofun
  | error e =>
    rintro _ ⟨⟩
    exact Bus.pollRequest_text ended

theorem Turn.OnBus.worded (onBus : t.OnBus) : t.Worded := by
  cases t with
  | others => trivial
  | own around heard =>
    cases onBus with
    | nothing => exact nofun
    | published b ts ctx now m => exact publish_worded b ts ctx now m around
    | refused opened => exact openRequest_worded opened around
    | ended polled => exact pollRequest_worded polled around

end Bus

namespace Call
variable {o : Order} {c : Coordinator} {s : Swap} {call : Call} {turns : List Turn} {outcome : Outcome} {e : Error}

/-- The turn at which the call returns leaves its record with the coordinator, unless that keeps too many. -/
def Stores (call : Call) (t : Turn) : Prop :=
  call.outcome? = none → ∀ outcome record, (call.turn t).outcome? = some outcome → outcome.session? = some record →
    (call.turn t).coordinator.sessions.get? record.id = some record ∨
      ((call.turn t).coordinator.sessions.get? record.id = none ∧
        call.coordinator.maxSessions < (call.coordinator.sessions.insert record.id record).length)

theorem outcome_session (begun : call.swap = .ok s) (ended : call.outcome? = some outcome) :
    outcome.session? = some s.session := by
  obtain ⟨_, rfl⟩ := outcome_begun begun ended
  cases s.error <;> rfl

theorem turn_stores (call : Call) (t : Turn) : call.Stores t := by
  intro unended outcome record ended gave
  cases t with
  | others c =>
    have same : (call.turn (.others c)).outcome? = call.outcome? := rfl
    rw [same, unended] at ended
    cases ended
  | own around heard =>
    cases begun : call.swap with
    | error e => simp [outcome?, begun] at unended
    | ok s =>
      have next := turn_own begun around heard
      have before : s.isOver = false := by
        cases atEnd : s.isOver with
        | false => rfl
        | true => simp [outcome_over begun atEnd] at unended
      obtain ⟨atEnd, _⟩ := outcome_begun (congrArg swap next) ended
      have given := outcome_session (congrArg swap next) ended
      rw [gave] at given
      cases given
      rw [next]
      exact Swap.ends_stored Swap.advance_moves before atEnd

theorem play_text (worded : ∀ t ∈ turns, t.Worded) (ends : ((o.start c).play turns).swap = .ok s) :
    ∀ e, s.error = some e → e.text ≠ "" := by
  have keeps : Keeps (fun _ t => t.Worded) fun s _ => s.OnCourse ∧ ∀ e, s.error = some e → e.text ≠ "" := by
    refine ⟨?_, fun _ _ _ held _ => held⟩
    rintro s c around heard s' c' ⟨on, said⟩ worded moves
    exact ⟨Swap.moves_onCourse on moves, Swap.moves_text on worded said moves⟩
  have start : (o.start c).Holds fun s _ => s.OnCourse ∧ ∀ e, s.error = some e → e.text ≠ "" := by
    intro s begun
    have on := start_onCourse o c s begun
    have reached := on.reached (by rw [(start_fits begun).2]; rfl)
    exact ⟨on, by simp [reached.error]⟩
  exact (play_keeps keeps start (always_of_mem (fun _ t there => worded t there) _) s ends).2

theorem unrecorded_iff (ended : ((o.start c).play turns).outcome? = some outcome) :
    outcome.session? = none ↔
      o.newName = "" ∨ o.newName = o.oldName ∨ c.registry.agents.get? o.oldName = none := by
  rw [← unsound_iff, ← start_refused_iff]
  cases begun : (o.start c).swap with
  | error e =>
    rw [outcome_refused (play_refused begun turns)] at ended
    cases ended
    exact ⟨fun _ => ⟨e, rfl⟩, fun _ => rfl⟩
  | ok s₀ =>
    obtain ⟨s, ends⟩ := play_begun begun turns
    rw [outcome_session ends ended]
    exact ⟨nofun, fun ⟨e, refused⟩ => (nomatch refused)⟩

theorem outcome_audited {record : Session} (ended : ((o.start c).play turns).outcome? = some outcome)
    (gave : outcome.session? = some record) : outcome.Audited record := by
  cases ends : ((o.start c).play turns).swap with
  | error e =>
    rw [outcome_refused ends] at ended
    cases ended
    cases gave
  | ok s =>
    rw [outcome_session ends ended] at gave
    cases gave
    obtain ⟨atEnd, rfl⟩ := outcome_begun ends ended
    exact Swap.over_audited (play_onCourse o c turns s ends) atEnd

theorem outcome_text {record : Session} (worded : ∀ t ∈ turns, t.Worded)
    (ended : ((o.start c).play turns).outcome? = some (.failed e (some record))) : e.text ≠ "" := by
  rcases failed_cases ended with ⟨_, unrecorded⟩ | ⟨s, ends, _, failed, _⟩
  · cases unrecorded
  · exact play_text worded ends e failed

/-- Over the bus of this library every call that fails says why. -/
theorem failure_on_bus_text {record : Session} (onBus : ∀ t ∈ turns, t.OnBus)
    (ended : ((o.start c).play turns).outcome? = some (.failed e (some record))) : e.text ≠ "" :=
  outcome_text (fun t there => (onBus t there).worded) ended

/-- A call that goes on often enough returns, with a record unless it was refused; the record shows what became
of the call, and is with the coordinator when the call returns. -/
theorem every_end_recorded :
    (SwapPhase.opening.turnsLeft ≤ turns.countP Turn.isOwn → ((o.start c).play turns).outcome?.isSome = true) ∧
    (∀ outcome, ((o.start c).play turns).outcome? = some outcome →
      (outcome.session? = none ↔
        o.newName = "" ∨ o.newName = o.oldName ∨ c.registry.agents.get? o.oldName = none) ∧
      ∀ record, outcome.session? = some record → outcome.Audited record) ∧
    ((∀ t ∈ turns, t.Worded) → ∀ e record,
      ((o.start c).play turns).outcome? = some (.failed e (some record)) → e.text ≠ "") ∧
    (o.start c).Always Stores turns := by
  refine ⟨play_returns o c, ?_, ?_, always_of_mem (fun call t _ => turn_stores call t) _⟩
  · intro outcome ended
    exact ⟨unrecorded_iff ended, fun record gave => outcome_audited ended gave⟩
  · intro worded e record ended
    exact outcome_text worded ended

theorem every_end_recorded_without_reply :
    ∃ e record, ((Sample.order.start Sample.coordinator).play (Sample.turns Sample.unanswered)).outcome? =
        some (.failed e (some record)) ∧
      record.status = .rolledBack ∧ (Outcome.failed e (some record)).Audited record ∧ e.text ≠ "" := by
  obtain ⟨e, record, ended, rolledBack⟩ : ∃ e record,
      ((Sample.order.start Sample.coordinator).play (Sample.turns Sample.unanswered)).outcome? =
        some (.failed e (some record)) ∧ record.status = .rolledBack := ⟨_, _, rfl, rfl⟩
  have worded : ∀ t ∈ Sample.turns Sample.unanswered, t.Worded := by
    intro t there
    rcases List.mem_cons.mp there with rfl | there
    · trivial
    · rcases Sample.onward_cases there with rfl | rfl
      · exact Turn.OnBus.worded Bus.Gives.nothing
      · rintro _ ⟨⟩
        exact Error.communication_text _
  obtain ⟨_, audited, said, _⟩ :=
    @every_end_recorded Sample.order Sample.coordinator (Sample.turns Sample.unanswered)
  exact ⟨e, record, ended, rolledBack, (audited _ ended).2 record rfl, said worded e record ended⟩

end Call
end Handover
