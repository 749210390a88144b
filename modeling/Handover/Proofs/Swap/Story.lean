import Handover.Proofs.Swap.Filing

/-!
# What a swap announces

A swap says that it has started, then which steps it has completed, and in the end how it came out. All of this is in
its record, so the record shows what the swap has announced: `Swap.announced`. Every turn adds to that what it
announces: `moves_announced`.
-/

namespace Handover

namespace SwapEvent

/-- The id of the session that the event is about. -/
def session : SwapEvent → String
  | started id _ _ | stepCompleted id _ | completed id _ | failed id _ | rolledBack id _ => id

end SwapEvent

namespace Session
variable {x : Session}

/-- The steps that were completed, by name and in order. -/
def completedSteps (x : Session) : List String := (x.steps.filter (·.status = .completed)).map SwapStep.name

/-- How an ended session came out, as an event. -/
inductive EndsWith (x : Session) : SwapEvent → Prop where
  | completed {duration : Span} (status : x.status = .completed) (lasted : x.duration = some duration) :
      EndsWith x (.completed x.id duration)
  | failed {error : String} (status : x.status = .failed) (why : x.error = some error) :
      EndsWith x (.failed x.id error)
  | rolledBack {error : String} (status : x.status = .rolledBack) (why : x.error = some error) :
      EndsWith x (.rolledBack x.id error)

theorem completedSteps_of_lines {left : List SwapStage} {current : Option SwapStage} {under : StepStatus}
    (shown : x.lines = Milestone.linesOf left current under) (unfinished : under ≠ .completed) :
    x.completedSteps = left.map SwapStage.text := by
  have steps : x.completedSteps = (x.lines.filter (·.2 = .completed)).map Prod.fst := by
    simp only [completedSteps, lines, List.filter_map, List.map_map]
    rfl
  rw [steps, shown, Milestone.linesOf, List.filter_append, List.filter_eq_self.mpr, List.filter_eq_nil_iff.mpr]
  · simp
  · simp [unfinished]
  · simp

end Session

namespace Swap
variable {s s' : Swap} {c c' : Coordinator} {around : Surroundings} {heard : Except Error (Option Message)}
  {stage : SwapStage} {e : Error}

/-- What the swap has announced. -/
def announced (s : Swap) : List SwapEvent :=
  if s.phase = .opening then []
  else
    .started s.session.id s.session.oldName s.session.newName ::
      s.session.completedSteps.map (.stepCompleted s.session.id) ++
        if s.phase = .finished then [endEvent s.session] else []

theorem announced_session (s : Swap) : ∀ e ∈ s.announced, e.session = s.session.id := by
  intro e there
  unfold announced at there
  split at there
  · cases there
  · simp only [List.cons_append, List.mem_cons, List.mem_append, List.mem_map] at there
    rcases there with rfl | ⟨_, _, rfl⟩ | there
    · rfl
    · rfl
    · split at there
      · obtain rfl := List.mem_singleton.mp there
        unfold endEvent
        split <;> rfl
      · cases there

theorem announced_opening (phase : s.phase = .opening) : s.announced = [] := if_pos phase

theorem announced_amid (begun : s.phase ≠ .opening) (unended : s.phase ≠ .finished) :
    s.announced = .started s.session.id s.session.oldName s.session.newName ::
      s.session.completedSteps.map (.stepCompleted s.session.id) := by
  rw [announced, if_neg begun, if_neg unended, List.append_nil]

theorem announced_finished (phase : s.phase = .finished) :
    s.announced = .started s.session.id s.session.oldName s.session.newName ::
      s.session.completedSteps.map (.stepCompleted s.session.id) ++ [endEvent s.session] := by
  simp only [announced, phase, if_true, reduceCtorEq, if_false]

theorem announced_same (begun : s.phase ≠ .opening) (unended : s.phase ≠ .finished) (begun' : s'.phase ≠ .opening)
    (unended' : s'.phase ≠ .finished) (heading : s'.session.heading = s.session.heading)
    (steps : s'.session.completedSteps = s.session.completedSteps) : s'.announced = s.announced := by
  simp only [Session.heading, Prod.mk.injEq] at heading
  obtain ⟨id, oldName, newName, _⟩ := heading
  rw [announced_amid begun unended, announced_amid begun' unended', id, oldName, newName, steps]

theorem undo_events (s : Swap) (c : Coordinator) : (s.undo c).events = c.events := by
  unfold undo
  split
  · rfl
  · split
    · rfl
    · split <;> rfl

theorem failWith_announced (begun : s.phase ≠ .opening) (unended : s.phase ≠ .finished) (e : Error) :
    (s.failWith e).announced = s.announced := by
  obtain ⟨unended', begun'⟩ := failWith_phase s e
  exact announced_same begun unended begun' unended' rfl rfl

theorem arrive_completedSteps (s : Swap) (stage : SwapStage) (now : Instant) :
    (s.arrive stage now).completedSteps = s.session.completedSteps := by
  simp [arrive, Session.addStep, Session.completedSteps]

theorem stepDone_completedSteps (reached : Reached (.leaving stage) s) (now : Instant) :
    (s.stepDone now).completedSteps = s.session.completedSteps ++ [stage.text] := by
  have before := Session.completedSteps_of_lines reached.lines (by decide)
  have after := Session.completedSteps_of_lines (stepDone_lines reached now) (by decide)
  have left : (Milestone.leaving stage).left = stage.earlier := rfl
  rw [before, after, left, List.map_append]
  rfl

theorem closed_completedSteps (ended : Won s ∨ ∃ e, Lost e s) (now : Instant) :
    (s.closed now).completedSteps = s.session.completedSteps := by
  rcases ended with won | ⟨e, lost⟩
  · rw [won.closed_eq]
  · obtain ⟨left, current, lines, _⟩ := lost.lines
    rw [Session.completedSteps_of_lines lines (by decide),
      Session.completedSteps_of_lines (lost.closed_lines lines now) (by decide)]

/-- A swap that leaves a stage announces its step, whatever it does next. -/
theorem left_announced (on : OnCourse s) (phase : s.phase = .leaving stage) (begun : s'.phase ≠ .opening)
    (unended : s'.phase ≠ .finished) (heading : s'.session.heading = s.session.heading)
    (steps : s'.session.steps = (s.stepDone now).steps) :
    s'.announced = s.announced ++ [.stepCompleted (s.stepDone now).id stage.text] := by
  have done := stepDone_completedSteps (on.reached (m := .leaving stage) (by rw [phase]; rfl)) now
  have steps : s'.session.completedSteps = s.session.completedSteps ++ [stage.text] :=
    (congrArg (fun steps => (steps.filter (·.status = .completed)).map SwapStep.name) steps).trans done
  simp only [Session.heading, Prod.mk.injEq] at heading
  obtain ⟨id, oldName, newName, _⟩ := heading
  rw [announced_amid begun unended, announced_amid (by simp [phase]) (by simp [phase]), id, oldName, newName, steps,
    List.map_append]
  rfl

/-- At a turn a swap announces what its record shows after it and did not show before. -/
theorem moves_announced (on : OnCourse s) (moves : Moves s c around heard s' c') :
    ∃ said, c'.events = c.events ++ said ∧ s'.announced = s.announced ++ said := by
  have silent (events : c'.events = c.events) (same : s'.announced = s.announced) :
      ∃ said, c'.events = c.events ++ said ∧ s'.announced = s.announced ++ said :=
    ⟨[], by rw [events, List.append_nil], by rw [same, List.append_nil]⟩
  cases moves with
  | opened phase =>
    have steps := Session.completedSteps_of_lines (on.reached (by rw [phase]; rfl)).lines (by decide)
    have after := announced_amid (s := { s with phase := .entering .capture }) (by simp) (by simp)
    refine ⟨_, rfl, ?_⟩
    rw [announced_opening phase, after, steps]
    rfl
  | left phase => exact ⟨_, rfl, left_announced on phase (by simp) (by simp) rfl rfl⟩
  | won phase done =>
    obtain ⟨_, rfl⟩ := Session.complete_ok_iff.mp done
    exact ⟨_, rfl, left_announced on phase (by simp) (by simp) rfl rfl⟩
  | unfinished phase =>
    obtain ⟨unended, begun⟩ := failWith_phase { s with session := s.stepDone around.time } _
    exact ⟨_, rfl, left_announced on phase begun unended rfl rfl⟩
  | closed phase =>
    refine ⟨_, rfl, ?_⟩
    have heading := closed_heading s around.time
    simp only [Session.heading, Prod.mk.injEq] at heading
    obtain ⟨id, oldName, newName, _⟩ := heading
    rw [announced_finished rfl, announced_amid (by simp [phase]) (by simp [phase]), id, oldName, newName,
      closed_completedSteps (closing_ended on phase)]
  | rested => exact silent rfl rfl
  | entered phase =>
    refine silent rfl (announced_same (by simp [phase]) (by simp [phase]) ?_ ?_ rfl (arrive_completedSteps s _ _))
    all_goals split <;> simp
  | vanished phase =>
    refine silent rfl ?_
    rw [failWith_announced (by simp [phase]) (by simp [phase])]
    exact announced_same (by simp [phase]) (by simp [phase]) (by simp [phase]) (by simp [phase]) rfl rfl
  | stopped why =>
    obtain ⟨begun, unended⟩ := stops_amid why
    exact silent rfl (failWith_announced begun unended _)
  | undone phase =>
    exact silent (undo_events s c) (announced_same (by simp [phase]) (by simp [phase]) (by simp) (by simp) rfl rfl)
  | captured phase | paused phase | told phase | looked phase | enrolled phase | verified phase | handed phase
  | activated phase | removed phase | revived phase | unrevived phase | resumed phase =>
    exact silent rfl (announced_same (by simp [phase]) (by simp [phase]) (by simp) (by simp) rfl rfl)

/-- The last that a swap announces is how its session came out. -/
theorem ended_endsWith (on : OnCourse s) (atEnd : s.isOver = true) : s.session.EndsWith (endEvent s.session) := by
  obtain ⟨before, now, rfl, ended⟩ := on.ended atEnd
  rcases ended with won | ⟨e, lost⟩
  · obtain ⟨duration, lasted, _⟩ := won.lasted
    have ends := Session.EndsWith.completed won.status lasted
    simpa [won.closed_eq, endEvent, won.status, lasted] using ends
  · have why : (before.closed now).error = some e.text := by simp [lost.closed_eq, Session.finish]
    have status : (before.closed now).status = if before.oldPaused then .rolledBack else .failed := by
      simp [lost.closed_eq, Session.finish]
    cases paused : before.oldPaused with
    | true =>
      have status : (before.closed now).status = .rolledBack := by rw [status, paused, if_pos rfl]
      simpa [endEvent, status, why] using Session.EndsWith.rolledBack status why
    | false =>
      have status : (before.closed now).status = .failed := by rw [status, paused, if_neg Bool.false_ne_true]
      simpa [endEvent, status, why] using Session.EndsWith.failed status why

end Swap
end Handover
