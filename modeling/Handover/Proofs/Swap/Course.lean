import Handover.Proofs.Swap.Moves

/-!
# The course of a swap

At every phase on the way to success the record shows the stages left and the one under way, and a status that
goes with them: the `Milestone` of the phase. A swap that fails keeps the record of the place where it failed
until it is closed. `OnCourse` says so for every swap that was begun, whatever the coordinator and the bus do.
-/

namespace Handover

namespace SwapStage

def all : List SwapStage := [capture, pause, register, verify, transfer, finalize]

def earlier (stage : SwapStage) : List SwapStage := all.takeWhile (· ≠ stage)

def statusBefore : SwapStage → SwapStatus
  | capture => .initiating
  | pause => .capturingState
  | register | verify => .pausing
  | transfer => .verifying
  | finalize => .transferringState

def statusWithin (stage : SwapStage) : SwapStatus := stage.status?.getD stage.statusBefore

theorem text_injective {a b : SwapStage} (same : a.text = b.text) : a = b := by
  revert same
  cases a <;> cases b <;> decide

end SwapStage

/-- What the record of a swap shows at a phase on the way to success. -/
structure Milestone where
  left : List SwapStage
  current : Option SwapStage := none
  status : SwapStatus
  captured : Bool := true
  paused : Bool := true

namespace Milestone

def linesOf (left : List SwapStage) (current : Option SwapStage) (under : StepStatus := .running) :
    List (String × StepStatus) :=
  left.map (fun stage => (stage.text, .completed)) ++ current.toList.map fun stage => (stage.text, under)

theorem completed_mem_linesOf {stage : SwapStage} {left : List SwapStage} {current : Option SwapStage}
    {under : StepStatus} (open' : under ≠ .completed) :
    (stage.text, .completed) ∈ linesOf left current under ↔ stage ∈ left := by
  simp only [linesOf, List.mem_append, List.mem_map, Option.mem_toList, Prod.mk.injEq, and_true]
  constructor
  · rintro (⟨other, there, same⟩ | ⟨other, _, _, same⟩)
    · exact SwapStage.text_injective same ▸ there
    · exact absurd same open'
  · exact fun there => .inl ⟨stage, there, rfl⟩

def entering (stage : SwapStage) : Milestone where
  left := stage.earlier
  status := stage.statusBefore
  captured := stage != .capture
  paused := stage.earlier.contains .pause

def within (stage : SwapStage) : Milestone :=
  { entering stage with current := some stage, status := stage.statusWithin }

def leaving (stage : SwapStage) : Milestone :=
  { within stage with captured := true, paused := stage != .capture }

/-- Whether a swap may fail here: it has something to show, and can be rolled back if it paused the old agent. -/
def mayFail (m : Milestone) : Bool :=
  m.captured && !(m.left ++ m.current.toList).isEmpty && (m.left ++ m.current.toList).isPrefixOf SwapStage.all
    && m.left != SwapStage.all && m.paused == m.left.contains .pause && (!m.paused || m.status.canBecome .rolledBack)
    && !m.status.isTerminal

end Milestone

def SwapPhase.milestone? : SwapPhase → Option Milestone
  | .opening => some { left := [], status := .initiating, captured := false, paused := false }
  | .entering stage => some (.entering stage)
  | .working .verify => none
  | .working stage => some (.within stage)
  | .telling => some (.within .pause)
  | .enrolling => some (.within .register)
  | .asking => some (.within .verify)
  | .activating => some (.within .transfer)
  | .leaving stage => some (.leaving stage)
  | .undoing | .reviving | .resuming | .closing | .finished => none

/-- How many turns a swap takes from here at most. -/
def SwapPhase.turnsLeft : SwapPhase → Nat
  | .opening => 26
  | .entering .capture => 25
  | .working .capture => 24
  | .leaving .capture => 23
  | .entering .pause => 22
  | .working .pause => 21
  | .telling => 20
  | .leaving .pause => 19
  | .entering .register => 18
  | .working .register => 17
  | .enrolling => 16
  | .leaving .register => 15
  | .entering .verify => 14
  | .asking => 13
  | .leaving .verify => 12
  | .entering .transfer => 11
  | .working .transfer => 10
  | .activating => 9
  | .leaving .transfer => 8
  | .entering .finalize => 7
  | .working .finalize => 6
  | .leaving .finalize => 5
  | .undoing => 4
  | .reviving => 3
  | .resuming => 2
  | .closing => 1
  | .working .verify | .finished => 0

theorem SwapPhase.turnsLeft_le (phase : SwapPhase) : phase.turnsLeft ≤ SwapPhase.opening.turnsLeft := by
  unfold turnsLeft
  split <;> decide

namespace Swap

structure Reached (m : Milestone) (s : Swap) : Prop where
  error : s.error = none
  unmarred : s.session.error = none
  lines : s.session.lines = Milestone.linesOf m.left m.current
  status : s.session.status = m.status
  captured : s.session.snapshot.isSome = m.captured
  paused : s.oldPaused = m.paused

/-- A swap that has failed and is not yet closed. -/
structure Lost (e : Error) (s : Swap) : Prop where
  error : s.error = some e
  live : s.session.isTerminal = false
  captured : s.session.snapshot.isSome = true
  lines : ∃ left current, s.session.lines = Milestone.linesOf left current ∧
    left ++ current.toList ≠ [] ∧ left ++ current.toList <+: SwapStage.all ∧ left ≠ SwapStage.all ∧
    (s.oldPaused = true ↔ .pause ∈ left)
  revocable : s.oldPaused = true → s.session.status.canBecome .rolledBack = true

structure Won (s : Swap) : Prop where
  error : s.error = none
  unmarred : s.session.error = none
  lines : s.session.lines = Milestone.linesOf SwapStage.all none
  status : s.session.status = .completed
  captured : s.session.snapshot.isSome = true
  ended : s.session.completedAt.isSome = true
  lasted : ∃ d, s.session.duration = some d ∧ 1 ≤ d.toNanos

inductive OnCourse (s : Swap) : Prop where
  | ahead {m : Milestone} (milestone : s.phase.milestone? = some m) (reached : Reached m s)
  | back (phase : s.phase = .undoing ∨ s.phase = .reviving ∨ s.phase = .resuming) (paused : s.oldPaused = true)
      (lost : Lost e s)
  | lost (phase : s.phase = .closing) (lost : Lost e s)
  | won (phase : s.phase = .closing) (won : Won s)
  | finished (before : Swap) (now : Instant) (closed : s = { before with session := before.closed now, phase := .finished })
      (ended : Won before ∨ ∃ e, Lost e before)

variable {s s' : Swap} {c c' : Coordinator} {around : Surroundings} {heard : Except Error (Option Message)}
  {m : Milestone} {e : Error}

theorem OnCourse.reached (on : OnCourse s) (milestone : s.phase.milestone? = some m) : Reached m s := by
  cases on with
  | ahead same reached =>
    rw [same] at milestone
    cases milestone
    exact reached
  | back phase => rcases phase with phase | phase | phase <;> simp [phase, SwapPhase.milestone?] at milestone
  | lost phase => simp [phase, SwapPhase.milestone?] at milestone
  | won phase => simp [phase, SwapPhase.milestone?] at milestone
  | finished before now closed => simp [closed, SwapPhase.milestone?] at milestone

theorem begin?_cases {r : Registry} {ctx : Context} {oldName newName id : String} {changes : Table Json}
    {now : Instant} (begun : begin? r ctx oldName newName changes id now = .ok s) :
    newName ≠ "" ∧ newName ≠ oldName ∧ ∃ old, r.agents.get? oldName = some old ∧
      s = { context := ctx, old, changes, session := .new id oldName newName now } := by
  unfold begin? at begun
  split at begun
  · cases begun
  rename_i given
  split at begun
  · cases begun
  rename_i differ
  split at begun
  · cases begun
  rename_i old found
  cases begun
  exact ⟨given, differ, old, found, rfl⟩

theorem begun_onCourse {r : Registry} {ctx : Context} {oldName newName id : String} {changes : Table Json}
    {now : Instant} (begun : begin? r ctx oldName newName changes id now = .ok s) : OnCourse s := by
  obtain ⟨_, _, old, _, rfl⟩ := begin?_cases begun
  exact .ahead rfl ⟨rfl, rfl, rfl, rfl, rfl, rfl⟩

theorem failWith_lost (reached : Reached m s) (may : m.mayFail = true) : Lost e (s.failWith e) := by
  simp only [Milestone.mayFail, Bool.and_eq_true, Bool.not_eq_true', List.isEmpty_eq_false_iff,
    List.isPrefixOf_iff_prefix, bne_iff_ne, beq_iff_eq, Bool.or_eq_true] at may
  obtain ⟨⟨⟨⟨⟨⟨captured, shown⟩, order⟩, unfinished⟩, paused⟩, revocable⟩, live⟩ := may
  refine ⟨rfl, ?_, ?_, ⟨m.left, m.current, reached.lines, shown, order, unfinished, ?_⟩, ?_⟩
  · simpa [failWith, Session.isTerminal, reached.status] using live
  · simpa [failWith, reached.captured] using captured
  · simp [failWith, reached.paused, paused]
  · intro was
    have was : m.paused = true := by simpa [failWith, reached.paused] using was
    simpa [failWith, reached.status, was] using revocable

theorem failWith_onCourse (reached : Reached m s) (may : m.mayFail = true) : OnCourse (s.failWith e) := by
  have lost := failWith_lost (e := e) reached may
  by_cases paused : s.oldPaused = true
  · exact .back (.inl (by simp [failWith, paused])) paused lost
  · exact .lost (by simp [failWith, paused]) lost

theorem entered_onCourse {stage : SwapStage} (on : OnCourse s) (phase : s.phase = .entering stage)
    (now : Instant) :
    OnCourse { s with
      session := s.arrive stage now
      phase := if stage = .verify then .asking else .working stage } := by
  have reached := on.reached (m := .entering stage) (by rw [phase]; rfl)
  refine .ahead (m := .within stage) (by cases stage <;> rfl)
    ⟨reached.error, reached.unmarred, ?_, ?_, reached.captured, reached.paused⟩
  · have lines : s.session.lines = Milestone.linesOf stage.earlier none := reached.lines
    simp [arrive_lines, lines, Milestone.linesOf, Milestone.within, Milestone.entering]
  · have status := reached.status
    simp only [arrive, Session.addStep]
    rw [status]
    rfl

theorem stepDone_lines {stage : SwapStage} (reached : Reached (.leaving stage) s) (now : Instant) :
    (s.stepDone now).lines = Milestone.linesOf (stage.earlier ++ [stage]) none := by
  have lines := reached.lines
  simp only [Milestone.linesOf, Milestone.leaving, Milestone.within, Milestone.entering] at lines
  rw [stepDone, Session.completeStep_lines lines]
  simp [Milestone.linesOf]

theorem left_onCourse {stage next : SwapStage} (on : OnCourse s) (phase : s.phase = .leaving stage)
    (onward : stage.next? = some next) (now : Instant) :
    OnCourse { s with session := s.stepDone now, phase := .entering next } := by
  have reached := on.reached (m := .leaving stage) (by rw [phase]; rfl)
  have lines := stepDone_lines reached now
  have status := reached.status
  have captured := reached.captured
  have paused := reached.paused
  refine .ahead (m := .entering next) rfl ⟨reached.error, reached.unmarred, ?_, ?_, ?_, ?_⟩
  all_goals cases stage <;> cases onward
  all_goals first | exact lines | exact status | exact captured | exact paused

theorem complete_won {session : Session} (reached : Reached (.leaving .finalize) s)
    (done : (s.stepDone now).complete now = .ok session) : Won { s with session, phase := .closing } := by
  have lines := stepDone_lines reached now
  obtain ⟨_, rfl⟩ := Session.complete_ok_iff.mp done
  exact ⟨reached.error, reached.unmarred, lines, rfl, reached.captured, rfl, _, rfl, Instant.elapsed_pos _ _⟩

theorem barred_absurd {stage : SwapStage} {next : SwapStatus} (on : OnCourse s) (phase : s.phase = .entering stage)
    (status : stage.status? = some next) (barred : s.session.transition next = .error e) : False := by
  have reached := on.reached (m := .entering stage) (by rw [phase]; rfl)
  have allowed : s.session.status.canBecome next = true := by
    rw [reached.status]
    cases stage <;> cases status <;> rfl
  rw [Session.transition_ok_iff.mpr ⟨allowed, rfl⟩] at barred
  cases barred

theorem stops_onCourse (on : OnCourse s) (why : Stops s c around heard e) : OnCourse (s.failWith e) := by
  cases why with
  | gaveUp heeds =>
    unfold heedsCaller at heeds
    split at heeds
    · cases heeds
    · rename_i stage notCapture phase
      exact failWith_onCourse (on.reached (by rw [phase]; rfl)) (by cases stage <;> simp_all <;> rfl)
    · rename_i phase
      exact failWith_onCourse (on.reached (by rw [phase]; rfl)) rfl
    · cases heeds
  | barred phase status barred => exact (barred_absurd on phase status barred).elim
  | unpaused phase => exact failWith_onCourse (on.reached (by rw [phase]; rfl)) rfl
  | unenrolled phase => exact failWith_onCourse (on.reached (by rw [phase]; rfl)) rfl
  | unverified phase => exact failWith_onCourse (on.reached (by rw [phase]; rfl)) rfl
  | empty phase => exact failWith_onCourse (on.reached (by rw [phase]; rfl)) rfl
  | unhanded phase => exact failWith_onCourse (on.reached (by rw [phase]; rfl)) rfl
  | inactive phase => exact failWith_onCourse (on.reached (by rw [phase]; rfl)) rfl

theorem vanished_onCourse (on : OnCourse s) (phase : s.phase = .working .capture) (found : AgentState) :
    OnCourse ({ s with session := { s.session with snapshot := some found } }.failWith e) := by
  have reached := on.reached (m := .within .capture) (by rw [phase]; rfl)
  have shown : Reached { Milestone.within .capture with captured := true }
      { s with session := { s.session with snapshot := some found } } :=
    ⟨reached.error, reached.unmarred, reached.lines, reached.status, rfl, reached.paused⟩
  exact failWith_onCourse shown rfl

theorem unfinished_absurd (on : OnCourse s) (phase : s.phase = .leaving .finalize)
    (barred : (s.stepDone now).complete now = .error e) : False := by
  have reached := on.reached (m := .leaving .finalize) (by rw [phase]; rfl)
  have status : (s.stepDone now).status = .transferringState := reached.status
  have allowed : (s.stepDone now).status.canBecome .completed = true := by rw [status]; rfl
  rw [Session.complete_ok_iff.mpr ⟨allowed, rfl⟩] at barred
  cases barred

theorem OnCourse.turnedBack (on : OnCourse s)
    (phase : s.phase = .undoing ∨ s.phase = .reviving ∨ s.phase = .resuming) :
    s.oldPaused = true ∧ s.error.isSome = true := by
  cases on with
  | ahead milestone => rcases phase with phase | phase | phase <;> simp [phase, SwapPhase.milestone?] at milestone
  | back _ paused lost => exact ⟨paused, by simp [lost.error]⟩
  | lost closing => rcases phase with phase | phase | phase <;> simp [closing] at phase
  | won closing => rcases phase with phase | phase | phase <;> simp [closing] at phase
  | finished before now closed => rcases phase with phase | phase | phase <;> simp [closed] at phase

theorem closing_ended (on : OnCourse s) (phase : s.phase = .closing) : Won s ∨ ∃ e, Lost e s := by
  cases on with
  | ahead milestone => simp [phase, SwapPhase.milestone?] at milestone
  | back back => simp [phase] at back
  | lost _ lost => exact .inr ⟨_, lost⟩
  | won _ won => exact .inl won
  | finished before now closed => simp [closed] at phase

theorem same_onCourse (on : OnCourse s) (milestone : s.phase.milestone? = some m)
    (same : s'.phase.milestone? = some m) (error : s'.error = s.error) (session : s'.session = s.session)
    (paused : s'.oldPaused = s.oldPaused) : OnCourse s' := by
  have reached := on.reached milestone
  refine .ahead same ⟨error.trans reached.error, ?_, ?_, ?_, ?_, paused.trans reached.paused⟩
  · rw [session]; exact reached.unmarred
  · rw [session]; exact reached.lines
  · rw [session]; exact reached.status
  · rw [session]; exact reached.captured

theorem back_onCourse {next : SwapPhase} {since : Moment} (on : OnCourse s)
    (phase : s.phase = .undoing ∨ s.phase = .reviving ∨ s.phase = .resuming)
    (onward : next = .reviving ∨ next = .resuming ∨ next = .closing) :
    OnCourse { s with backSince := since, phase := next } := by
  cases on with
  | ahead milestone => rcases phase with phase | phase | phase <;> simp [phase, SwapPhase.milestone?] at milestone
  | back _ paused lost =>
    have kept : Lost _ { s with backSince := since, phase := next } :=
      ⟨lost.error, lost.live, lost.captured, lost.lines, lost.revocable⟩
    rcases onward with rfl | rfl | rfl
    · exact .back (.inr (.inl rfl)) paused kept
    · exact .back (.inr (.inr rfl)) paused kept
    · exact .lost rfl kept
  | lost closing => rcases phase with phase | phase | phase <;> simp [closing] at phase
  | won closing => rcases phase with phase | phase | phase <;> simp [closing] at phase
  | finished before now closed => rcases phase with phase | phase | phase <;> simp [closed] at phase

theorem moves_onCourse (on : OnCourse s) (moves : Moves s c around heard s' c') : OnCourse s' := by
  cases moves with
  | opened phase => exact same_onCourse on (m := .entering .capture) (by rw [phase]; rfl) rfl rfl rfl rfl
  | entered phase => exact entered_onCourse on phase _
  | captured phase =>
    have reached := on.reached (m := .within .capture) (by rw [phase]; rfl)
    exact .ahead rfl ⟨reached.error, reached.unmarred, reached.lines, reached.status, rfl, reached.paused⟩
  | vanished phase => exact vanished_onCourse on phase _
  | paused phase => exact same_onCourse on (m := .within .pause) (by rw [phase]; rfl) rfl rfl rfl rfl
  | told phase =>
    have reached := on.reached (m := .within .pause) (by rw [phase]; rfl)
    exact .ahead rfl ⟨reached.error, reached.unmarred, reached.lines, reached.status, reached.captured, rfl⟩
  | looked phase => exact same_onCourse on (m := .within .register) (by rw [phase]; rfl) rfl rfl rfl rfl
  | enrolled phase => exact same_onCourse on (m := .within .register) (by rw [phase]; rfl) rfl rfl rfl rfl
  | verified phase => exact same_onCourse on (m := .within .verify) (by rw [phase]; rfl) rfl rfl rfl rfl
  | handed phase => exact same_onCourse on (m := .within .transfer) (by rw [phase]; rfl) rfl rfl rfl rfl
  | activated phase => exact same_onCourse on (m := .within .transfer) (by rw [phase]; rfl) rfl rfl rfl rfl
  | removed phase => exact same_onCourse on (m := .within .finalize) (by rw [phase]; rfl) rfl rfl rfl rfl
  | left phase _ onward => exact left_onCourse on phase onward _
  | won phase done => exact .won rfl (complete_won (on.reached (by rw [phase]; rfl)) done)
  | unfinished phase barred => exact (unfinished_absurd on phase barred).elim
  | stopped why => exact stops_onCourse on why
  | undone phase => exact back_onCourse on (.inl phase) (.inl rfl)
  | revived phase => exact back_onCourse on (.inr (.inl phase)) (.inr (.inl rfl))
  | unrevived phase => exact back_onCourse on (.inr (.inl phase)) (.inr (.inr rfl))
  | resumed phase => exact back_onCourse on (.inr (.inr phase)) (.inr (.inr rfl))
  | closed phase => exact .finished s around.time rfl (closing_ended on phase)
  | rested => exact on

theorem Won.closed_eq (won : Won s) (now : Instant) : s.closed now = s.session := by
  simp [closed, won.error]

theorem Lost.closed_eq (lost : Lost e s) (now : Instant) :
    s.closed now =
      { s.session with
        steps := s.session.steps.map (Session.closeStep e.text now)
        status := if s.oldPaused then .rolledBack else .failed
        error := some e.text }.finish now := by
  have status := lost.live
  cases paused : s.oldPaused with
  | false =>
    have failing : s.session.status.canBecome .failed = true := by
      simp only [Session.isTerminal] at status
      cases was : s.session.status <;> rw [was] at status <;> first | rfl | cases status
    simp [closed, lost.error, paused, Session.fail, Session.endWith_live lost.live, failing]
  | true =>
    simp [closed, lost.error, paused, Session.rollBack, Session.endWith_live lost.live, lost.revocable paused]

theorem Lost.closed_lines {left : List SwapStage} {current : Option SwapStage} (lost : Lost e s)
    (lines : s.session.lines = Milestone.linesOf left current) (now : Instant) :
    (s.closed now).lines = Milestone.linesOf left current .failed := by
  have each : ∀ x : SwapStep, (Session.closeStep e.text now x).line =
      (x.line.1, if x.line.2 = .running then .failed else x.line.2) := by
    intro x
    cases status : x.status <;>
      simp [Session.closeStep, SwapStep.isRunning, SwapStep.line, SwapStep.fail, SwapStep.finish, status]
  have closed : (s.closed now).lines = s.session.lines.map fun l =>
      (l.1, if l.2 = .running then .failed else l.2) := by
    rw [lost.closed_eq]
    simp [Session.lines, Session.finish, each]
  rw [closed, lines]
  simp [Milestone.linesOf, Function.comp_def]

theorem OnCourse.ended (on : OnCourse s) (atEnd : s.isOver = true) :
    ∃ before now, s = { before with session := before.closed now, phase := .finished } ∧
      (Won before ∨ ∃ e, Lost e before) := by
  have phase : s.phase = .finished := by simpa [isOver] using atEnd
  cases on with
  | ahead milestone => simp [phase, SwapPhase.milestone?] at milestone
  | back back => simp [phase] at back
  | lost closing => simp [phase] at closing
  | won closing => simp [phase] at closing
  | finished before now closed ended => exact ⟨before, now, closed, ended⟩

theorem failWith_turnsLeft (s : Swap) (e : Error) : (s.failWith e).phase.turnsLeft ≤ 4 := by
  cases paused : s.oldPaused <;> simp [failWith, paused, SwapPhase.turnsLeft]

theorem stops_turnsLeft (why : Stops s c around heard e) : 5 < s.phase.turnsLeft := by
  cases why with
  | gaveUp heeds =>
    unfold heedsCaller at heeds
    split at heeds
    · cases heeds
    · rename_i stage _ phase
      cases stage <;> simp [phase, SwapPhase.turnsLeft]
    · rename_i phase
      simp [phase, SwapPhase.turnsLeft]
    · cases heeds
  | barred phase =>
    rename_i stage _ _ _
    cases stage <;> simp [phase, SwapPhase.turnsLeft]
  | unpaused phase | unenrolled phase | unverified phase | empty phase | unhanded phase | inactive phase =>
    simp [phase, SwapPhase.turnsLeft]

theorem moves_nearer (moves : Moves s c around heard s' c') :
    s'.phase.turnsLeft ≤ s.phase.turnsLeft - 1 := by
  cases moves with
  | entered phase => rename_i stage _ _; cases stage <;> simp [phase, SwapPhase.turnsLeft]
  | left phase _ onward => rename_i stage _ _; cases stage <;> cases onward <;> simp [phase, SwapPhase.turnsLeft]
  | stopped why =>
    have near := failWith_turnsLeft s
    have early := stops_turnsLeft why
    exact Nat.le_trans (near _) (by omega)
  | vanished phase => exact Nat.le_trans (failWith_turnsLeft _ _) (by simp [phase, SwapPhase.turnsLeft])
  | unfinished phase => exact Nat.le_trans (failWith_turnsLeft _ _) (by simp [phase, SwapPhase.turnsLeft])
  | rested phase => rcases phase with phase | phase <;> simp [phase, SwapPhase.turnsLeft]
  | opened phase | captured phase | paused phase | told phase | looked phase | enrolled phase | verified phase
  | handed phase | activated phase | removed phase | won phase | undone phase | revived phase | unrevived phase
  | resumed phase | closed phase => simp [phase, SwapPhase.turnsLeft]

theorem over_of_turnsLeft (on : OnCourse s) (none : s.phase.turnsLeft = 0) : s.isOver = true := by
  unfold SwapPhase.turnsLeft at none
  split at none <;> try cases none
  · rename_i phase
    cases on with
    | ahead milestone => simp [phase, SwapPhase.milestone?] at milestone
    | back back => simp [phase] at back
    | lost closing => simp [phase] at closing
    | won closing => simp [phase] at closing
    | finished before now closed => simp [closed] at phase
  · rename_i phase
    simp [isOver, phase]

end Swap
end Handover
