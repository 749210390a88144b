import Handover.Proofs.Session
import Handover.Swap.Protocol

/-!
# What a swap can do at one turn

At a turn a swap takes what the bus gave it, if it waits for that, and does one thing otherwise. `Moves` lists
all that may come of a turn, with what made it so; what holds of every swap is read off that list.
-/

namespace Handover
namespace Swap

/-- One turn of a swap: `heard` is what the bus gave, for a swap that waits for it. -/
def advance (s : Swap) (c : Coordinator) (around : Surroundings) (heard : Except Error (Option Message)) :
    Swap × Coordinator :=
  if s.errand.isSome then (s.answer heard, c) else s.step c around

/-- Whether a caller who gave up stops the swap at its next turn. -/
def heedsCaller (s : Swap) : Bool :=
  match s.phase with
  | .entering .capture => false
  | .entering _ | .leaving .capture => true
  | _ => false

def verdict (s : Swap) : Except Error (Option Message) → Except Error Unit
  | .error e => .error e
  | .ok none => .error (.communication s!"no reply from {s.newName}")
  | .ok (some m) => s.checkReply m

/-- Why a swap fails at a turn. -/
inductive Stops (s : Swap) (c : Coordinator) (around : Surroundings) (heard : Except Error (Option Message)) :
    Error → Prop where
  | gaveUp (heeds : s.heedsCaller = true) (gone : s.context.check around.tokens around.moment = .error e) :
      Stops s c around heard e
  | barred (phase : s.phase = .entering stage) (status : stage.status? = some next)
      (barred : s.session.transition next = .error e) : Stops s c around heard e
  | unpaused (phase : s.phase = .working .pause)
      (missing : c.registry.setStatus s.oldName .paused = .error e) : Stops s c around heard e
  | unenrolled (phase : s.phase = .enrolling)
      (refused : c.registry.register (successor s.old s.newName s.changes around.time) around.time = .error e) :
      Stops s c around heard e
  | unverified (phase : s.phase = .asking) (verdict : s.verdict heard = .error e) : Stops s c around heard e
  | empty (phase : s.phase = .working .transfer) (none : s.session.snapshot = none) :
      Stops s c around heard (.internal s!"swap {s.session.id} has no state snapshot")
  | unhanded (phase : s.phase = .working .transfer) (found : s.session.snapshot = some snapshot)
      (missing : c.registry.updateState s.newName
        (handed snapshot s.changes s.session.id s.session.oldName around.time) = .error e) :
      Stops s c around heard e
  | inactive (phase : s.phase = .activating)
      (missing : c.registry.setStatus s.newName .active = .error e) : Stops s c around heard e

def arrive (s : Swap) (stage : SwapStage) (now : Instant) : Session :=
  (({ s.session with status := stage.status?.getD s.session.status } : Session).addStep stage.text now).2

def stepDone (s : Swap) (now : Instant) : Session :=
  s.session.completeStep (s.session.steps.length - 1) now

def keepStep (c : Coordinator) (session : Session) (stage : SwapStage) : Coordinator :=
  (c.storeSession session).announce (.stepCompleted session.id stage.text)

/-- All that a turn may come to. -/
inductive Moves (s : Swap) (c : Coordinator) (around : Surroundings) (heard : Except Error (Option Message)) :
    Swap → Coordinator → Prop where
  | opened (phase : s.phase = .opening) :
      Moves s c around heard { s with phase := .entering .capture }
        ((c.storeSession s.session).announce (.started s.session.id s.session.oldName s.session.newName))
  | entered (phase : s.phase = .entering stage) (allowed : s.mayEnter around stage = .ok ())
      (moved : ∀ next, stage.status? = some next → s.session.status.canBecome next = true) :
      Moves s c around heard
        { s with
          session := s.arrive stage around.time
          phase := if stage = .verify then .asking else .working stage } c
  | captured (phase : s.phase = .working .capture) (found : c.registry.agents.get? s.oldName = some a) :
      Moves s c around heard
        { s with
          session := { s.session with
            snapshot := some (a.state.recordHistory (captureEntry s.session.id s.newName around.time)) }
          phase := .leaving .capture } c
  | vanished (phase : s.phase = .working .capture) (missing : c.registry.agents.get? s.oldName = none) :
      Moves s c around heard
        ({ s with session := { s.session with
            snapshot := some (s.old.state.recordHistory (captureEntry s.session.id s.newName around.time)) } }
          |>.failWith (.agentMissing s.oldName)) c
  | paused (phase : s.phase = .working .pause)
      (done : c.registry.setStatus s.oldName .paused = .ok (a, registry)) :
      Moves s c around heard { s with phase := .telling } { c with registry }
  | told (phase : s.phase = .telling) :
      Moves s c around heard { s with oldPaused := true, phase := .leaving .pause } c
  | looked (phase : s.phase = .working .register) :
      Moves s c around heard
        { s with displaced := c.registry.agents.get? s.newName, phase := .enrolling } c
  | enrolled (phase : s.phase = .enrolling)
      (done : c.registry.register (successor s.old s.newName s.changes around.time) around.time
        = .ok (a, registry)) :
      Moves s c around heard { s with newRegistered := true, phase := .leaving .register } { c with registry }
  | verified (phase : s.phase = .asking) (verdict : s.verdict heard = .ok ()) :
      Moves s c around heard { s with phase := .leaving .verify } c
  | handed (phase : s.phase = .working .transfer) (found : s.session.snapshot = some snapshot)
      (done : c.registry.updateState s.newName
        (handed snapshot s.changes s.session.id s.session.oldName around.time) = .ok (a, registry)) :
      Moves s c around heard { s with phase := .activating } { c with registry }
  | activated (phase : s.phase = .activating)
      (done : c.registry.setStatus s.newName .active = .ok (a, registry)) :
      Moves s c around heard { s with phase := .leaving .transfer } { c with registry }
  | removed (phase : s.phase = .working .finalize) :
      Moves s c around heard { s with phase := .leaving .finalize }
        { c with registry := (c.registry.unregister s.oldName).2 }
  | left (phase : s.phase = .leaving stage)
      (allowed : stage = .capture → s.context.check around.tokens around.moment = .ok ())
      (onward : stage.next? = some next) :
      Moves s c around heard { s with session := s.stepDone around.time, phase := .entering next }
        (keepStep c (s.stepDone around.time) stage)
  | won {session : Session} (phase : s.phase = .leaving .finalize)
      (done : (s.stepDone around.time).complete around.time = .ok session) :
      Moves s c around heard { s with session, phase := .closing }
        (keepStep c (s.stepDone around.time) .finalize)
  | unfinished (phase : s.phase = .leaving .finalize)
      (barred : (s.stepDone around.time).complete around.time = .error e) :
      Moves s c around heard ({ s with session := s.stepDone around.time }.failWith e)
        (keepStep c (s.stepDone around.time) .finalize)
  | stopped (why : Stops s c around heard e) : Moves s c around heard (s.failWith e) c
  | undone (phase : s.phase = .undoing) :
      Moves s c around heard { s with backSince := around.moment, phase := .reviving } (s.undo c)
  | revived (phase : s.phase = .reviving)
      (done : c.registry.setStatus s.session.oldName .active = .ok (a, registry)) :
      Moves s c around heard { s with phase := .resuming } { c with registry }
  | unrevived (phase : s.phase = .reviving)
      (missing : c.registry.setStatus s.session.oldName .active = .error e) :
      Moves s c around heard { s with phase := .closing } c
  | resumed (phase : s.phase = .resuming) : Moves s c around heard { s with phase := .closing } c
  | closed (phase : s.phase = .closing) :
      Moves s c around heard { s with session := s.closed around.time, phase := .finished }
        ((c.storeSession (s.closed around.time)).announce (endEvent (s.closed around.time)))
  | rested (phase : s.phase = .finished ∨ s.phase = .working .verify) : Moves s c around heard s c

variable {s : Swap} {c : Coordinator} {around : Surroundings} {heard : Except Error (Option Message)}

theorem arrive_lines (s : Swap) (stage : SwapStage) (now : Instant) :
    (s.arrive stage now).lines = s.session.lines ++ [(stage.text, .running)] :=
  Session.addStep_lines _ _ _

theorem enter_moves {stage : SwapStage} (phase : s.phase = .entering stage) :
    Moves s c around heard (s.enter stage around) c := by
  unfold enter
  cases allowed : s.mayEnter around stage with
  | error e =>
    refine .stopped (.gaveUp ?_ ?_)
    · cases stage <;> simp_all [heedsCaller, mayEnter]
    · cases stage <;> simp_all [mayEnter]
  | ok u =>
    cases status : stage.status? with
    | none =>
      have moves : Moves s c around heard _ c := .entered phase allowed (by simp [status])
      simpa [arrive, status, bind, Except.bind, pure, Except.pure] using moves
    | some next =>
      cases moved : s.session.transition next with
      | error e => simpa [bind, Except.bind, moved] using Moves.stopped (.barred phase status moved)
      | ok session =>
        obtain ⟨possible, rfl⟩ := Session.transition_ok_iff.mp moved
        have moves : Moves s c around heard _ c := .entered phase allowed (by simpa [status] using possible)
        simpa [arrive, status, bind, Except.bind, moved] using moves

theorem capture_moves (phase : s.phase = .working .capture) :
    Moves s c around heard (s.work c .capture around).1 (s.work c .capture around).2 := by
  cases found : c.registry.agents.get? s.oldName with
  | none =>
    have moves : Moves s c around heard _ c := .vanished phase found
    simpa [work, Registry.capture, Registry.get, found, bind, Except.bind] using moves
  | some a =>
    have moves : Moves s c around heard _ c := .captured phase found
    simpa [work, Registry.capture, Registry.get, found, bind, Except.bind, pure, Except.pure] using moves

theorem work_moves {stage : SwapStage} (phase : s.phase = .working stage) :
    Moves s c around heard (s.work c stage around).1 (s.work c stage around).2 := by
  cases stage with
  | capture => exact capture_moves phase
  | pause =>
    simp only [work, orFail]
    split
    · rename_i done; exact .paused phase done
    · rename_i missing; exact .stopped (.unpaused phase missing)
  | register => exact .looked phase
  | verify => exact .rested (.inr phase)
  | transfer =>
    simp only [work]
    cases found : s.session.snapshot with
    | none => exact .stopped (.empty phase found)
    | some snapshot =>
      simp only [orFail]
      split
      · rename_i done; exact .handed phase found done
      · rename_i missing; exact .stopped (.unhanded phase found missing)
  | finalize => exact .removed phase

theorem leave_moves {stage : SwapStage} (phase : s.phase = .leaving stage) :
    Moves s c around heard (s.leave c stage around).1 (s.leave c stage around).2 := by
  unfold leave
  by_cases heeds : stage = .capture ∧ ∃ e, s.context.check around.tokens around.moment = .error e
  · obtain ⟨rfl, e, gone⟩ := heeds
    simpa [gone] using Moves.stopped (.gaveUp (by simp [heedsCaller, phase]) gone)
  · have allowed : stage = .capture → s.context.check around.tokens around.moment = .ok () := by
      intro same
      cases gone : s.context.check around.tokens around.moment with
      | ok u => rfl
      | error e => exact absurd ⟨same, e, gone⟩ heeds
    have passed : (if stage = .capture then s.context.check around.tokens around.moment else .ok ()) = .ok () := by
      split
      · rename_i same; exact allowed same
      · rfl
    simp only [passed]
    cases onward : stage.next? with
    | some next => exact .left phase allowed onward
    | none =>
      obtain rfl : stage = .finalize := by cases stage <;> simp_all [SwapStage.next?]
      simp only [endWell]
      split
      · rename_i done; exact .won phase done
      · rename_i barred; exact .unfinished phase barred

theorem answer_moves (waits : s.errand.isSome = true) : Moves s c around heard (s.answer heard) c := by
  unfold answer
  split
  · rename_i phase; exact .told phase
  · rename_i phase
    have stops : ∀ e, s.verdict heard = .error e → Moves s c around heard (s.failWith e) c :=
      fun e bad => .stopped (.unverified phase bad)
    split
    · exact stops _ rfl
    · exact stops _ rfl
    · split
      · rename_i good; exact .verified phase good
      · rename_i bad; exact stops _ bad
  · rename_i phase; exact .resumed phase
  · simp_all [errand]

theorem advance_moves : Moves s c around heard (s.advance c around heard).1 (s.advance c around heard).2 := by
  unfold advance
  split
  · rename_i waits; exact answer_moves waits
  · rename_i free
    unfold step
    split
    · rename_i phase; exact .opened phase
    · rename_i phase; exact enter_moves phase
    · rename_i phase; exact work_moves phase
    · rename_i phase
      unfold orFail
      split
      · rename_i done; exact .enrolled phase done
      · rename_i refused; exact .stopped (.unenrolled phase refused)
    · rename_i phase
      unfold orFail
      split
      · rename_i done; exact .activated phase done
      · rename_i missing; exact .stopped (.inactive phase missing)
    · rename_i phase; exact leave_moves phase
    · rename_i phase; exact .undone phase
    · rename_i phase
      split
      · rename_i done; exact .revived phase done
      · rename_i missing; exact .unrevived phase missing
    · rename_i phase; exact .closed phase
    all_goals rename_i phase; simp_all [errand]
    exact .rested (.inl phase)

def terms (s : Swap) : Context × Registration × Table Json × String × String × String × Instant :=
  (s.context, s.old, s.changes, s.session.heading)

theorem closed_heading (s : Swap) (now : Instant) : (s.closed now).heading = s.session.heading := by
  unfold closed
  split
  · rfl
  · split <;> simp [Session.rollBack, Session.fail]

theorem closed_snapshot (s : Swap) (now : Instant) : (s.closed now).snapshot = s.session.snapshot := by
  unfold closed
  split
  · rfl
  · split <;> simp [Session.rollBack, Session.fail]

theorem moves_terms (moves : Moves s c around heard s' c') : s'.terms = s.terms := by
  cases moves with
  | entered => simp [terms, arrive, Session.heading, Session.addStep]
  | left => simp [terms, stepDone]
  | won _ done => simp [terms, Session.complete_heading done, stepDone]
  | unfinished => simp [terms, failWith, stepDone]
  | closed => simp [terms, closed_heading]
  | _ => rfl

end Swap
end Handover
