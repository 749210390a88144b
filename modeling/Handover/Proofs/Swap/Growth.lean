import Handover.Proofs.Session.Growth
import Handover.Proofs.Swap.Course

/-!
# The record of a swap grows at every turn

A swap on its course moves its record only to a status that may come next, completes no step but the one that is under
way, and takes its snapshot once: `moves_grows`.
-/

namespace Handover

theorem SwapPhase.milestone_live {phase : SwapPhase} {m : Milestone} (milestone : phase.milestone? = some m) :
    m.status.isTerminal = false := by
  cases phase with
  | entering stage | leaving stage => cases stage <;> cases milestone <;> rfl
  | working stage => cases stage <;> cases milestone <;> rfl
  | _ => cases milestone <;> rfl

namespace Swap
variable {s s' : Swap} {c c' : Coordinator} {around : Surroundings} {heard : Except Error (Option Message)}
  {stage : SwapStage} {now : Instant}

theorem OnCourse.live (on : OnCourse s) (milestone : s.phase.milestone? = some m) : s.session.isTerminal = false := by
  rw [Session.isTerminal, (on.reached milestone).status]
  exact SwapPhase.milestone_live milestone

theorem arrive_grows (on : OnCourse s) (phase : s.phase = .entering stage)
    (moved : ∀ next, stage.status? = some next → s.session.status.canBecome next = true) (now : Instant) :
    s.session.GrowsInto (s.arrive stage now) := by
  have live : s.session.isTerminal = false := on.live (m := .entering stage) (by rw [phase]; rfl)
  unfold arrive
  cases status : stage.status? with
  | none => exact Session.addStep_grows live _ _
  | some next =>
    have moved := Session.transition_ok_iff.mpr ⟨moved next status, rfl⟩
    refine (Session.transition_grows moved).trans (Session.addStep_grows ?_ _ _)
    cases stage <;> cases status <;> rfl

/-- The step that is completed when a stage is left is the last one, and it was running. -/
theorem stepDone_grows (on : OnCourse s) (phase : s.phase = .leaving stage) (now : Instant) :
    s.session.GrowsInto (s.stepDone now) := by
  have milestone : s.phase.milestone? = some (.leaving stage) := by rw [phase]; rfl
  have lines : s.session.lines = Milestone.linesOf stage.earlier (some stage) := (on.reached milestone).lines
  refine Session.completeStep_grows (on.live milestone) (fun step there => ?_) now
  obtain ⟨earlier, last, split, _, ends⟩ := List.map_eq_append_iff.mp lines
  obtain ⟨x, rfl, line⟩ := List.map_eq_singleton_iff.mp ends
  have status : x.status = .running := congrArg Prod.snd line
  have same : x = step := by simpa [split] using there
  rw [← same, SwapStep.isRunning, status]
  rfl

theorem closed_grows (s : Swap) (now : Instant) : s.session.GrowsInto (s.closed now) := by
  unfold closed
  split
  · exact .refl _
  · split
    · exact Session.endWith_grows _ _ _ _
    · exact Session.endWith_grows _ _ _ _

theorem captured_grows (on : OnCourse s) (phase : s.phase = .working .capture) (state : AgentState) :
    s.session.GrowsInto { s.session with snapshot := some state } := by
  have milestone : s.phase.milestone? = some (.within .capture) := by rw [phase]; rfl
  have none : s.session.snapshot.isSome = false := (on.reached milestone).captured
  exact Session.snapshot_grows (on.live milestone) (by simpa using none) state

theorem moves_grows (on : OnCourse s) (moves : Moves s c around heard s' c') : s.session.GrowsInto s'.session := by
  cases moves with
  | entered phase _ moved => exact arrive_grows on phase moved _
  | captured phase => exact captured_grows on phase _
  | vanished phase => exact captured_grows on phase _
  | left phase => exact stepDone_grows on phase _
  | won phase done => exact (stepDone_grows on phase _).trans (Session.complete_grows done)
  | unfinished phase => exact stepDone_grows on phase _
  | closed => exact closed_grows s _
  | _ => exact .refl _

end Swap
end Handover
