import Handover.Proofs.Swap.Entries

/-!
# What decides the course of a swap

What the caller does and what the ping gives are the fate of a swap. As long as nobody else writes its entries,
a swap goes through the phases that its fate has for it, and its record at the end is the one that goes with them:
`moves_tracks`, `over_record`.
-/

namespace Handover

/-- What a swap does not decide itself. -/
structure Fate where
  /-- What the context says at a phase at which the swap looks. -/
  caller : SwapPhase → Except Error Unit
  reply : Except Error (Option Message)

/-- How far a swap has come, and where it failed. -/
structure Progress where
  phase : SwapPhase := .opening
  failedAt : Option SwapPhase := none

namespace SwapPhase

/-- The phase after this one, if the swap does not fail here. -/
def onward : SwapPhase → SwapPhase
  | .opening => .entering .capture
  | .entering .verify => .asking
  | .entering stage => .working stage
  | .working .pause => .telling
  | .working .register => .enrolling
  | .working .verify => .working .verify
  | .working .transfer => .activating
  | .working stage => .leaving stage
  | .telling => .leaving .pause
  | .enrolling => .leaving .register
  | .asking => .leaving .verify
  | .activating => .leaving .transfer
  | .leaving stage => (stage.next?.map .entering).getD .closing
  | .undoing => .reviving
  | .reviving => .resuming
  | .resuming => .closing
  | .closing | .finished => .finished

/-- Whether a swap that fails here has paused the old agent. -/
def pausedAt (phase : SwapPhase) : Bool := phase.milestone?.any (·.paused)

end SwapPhase

namespace Progress

def next (stops : SwapPhase → Bool) (p : Progress) : Progress :=
  if stops p.phase then
    { phase := if p.phase.pausedAt then .undoing else .closing, failedAt := some p.phase }
  else { p with phase := p.phase.onward }

/-- The progress after so many turns. -/
def after (stops : SwapPhase → Bool) : Nat → Progress
  | 0 => {}
  | k + 1 => (after stops k).next stops

/-- The steps on record when a swap with this progress is over. -/
def lines (p : Progress) : List (String × StepStatus) :=
  match p.failedAt.bind SwapPhase.milestone? with
  | some m => Milestone.linesOf m.left m.current .failed
  | none => Milestone.linesOf SwapStage.all none

/-- The status of a swap with this progress when it is over. -/
def status (p : Progress) : SwapStatus :=
  match p.failedAt with
  | some place => if place.pausedAt then .rolledBack else .failed
  | none => .completed

variable {stops : SwapPhase → Bool} {p : Progress} {k n : Nat}

theorem next_onward (calm : stops p.phase = false) : p.next stops = { p with phase := p.phase.onward } := by
  simp [next, calm]

theorem after_finished (atEnd : (after stops k).phase = .finished) (calm : stops .finished = false) (n : Nat) :
    after stops (k + n) = after stops k := by
  induction n with
  | zero => rfl
  | succ n ih =>
    have still : (after stops k).next stops = after stops k := by
      rw [next_onward (by rw [atEnd, calm])]
      simp only [atEnd, SwapPhase.onward]
      rw [← atEnd]
    show (after stops (k + n)).next stops = after stops k
    rw [ih, still]

/-- However many turns it takes, a swap comes to one end only. -/
theorem one_end (atEnd : (after stops k).phase = .finished) (also : (after stops n).phase = .finished)
    (calm : stops .finished = false) : after stops k = after stops n := by
  rcases Nat.le_total k n with most | most
  · obtain ⟨more, rfl⟩ := Nat.exists_eq_add_of_le most
    exact (after_finished atEnd calm more).symm
  · obtain ⟨more, rfl⟩ := Nat.exists_eq_add_of_le most
    exact after_finished also calm more

end Progress

namespace Fate

def troubleOf : Except Error Unit → Option Error
  | .ok () => none
  | .error e => some e

/-- The error with which a swap of this fate fails at a phase, if it does. -/
def trouble (f : Fate) (s : Swap) : SwapPhase → Option Error
  | .asking => troubleOf (s.verdict f.reply)
  | .entering .capture => none
  | .entering stage => troubleOf (f.caller (.entering stage))
  | .leaving .capture => troubleOf (f.caller (.leaving .capture))
  | _ => none

def stops (f : Fate) (s : Swap) (phase : SwapPhase) : Bool := (f.trouble s phase).isSome

/-- A turn gives the swap what its fate has for it. -/
structure Met (f : Fate) (s : Swap) (around : Surroundings) (heard : Except Error (Option Message)) : Prop where
  caller : s.heedsCaller = true → s.context.check around.tokens around.moment = f.caller s.phase
  reply : s.phase = .asking → heard = f.reply

/-- The swap has come as far as this under its fate. -/
structure Tracks (f : Fate) (p : Progress) (s : Swap) : Prop where
  phase : s.phase = p.phase
  error : s.error = p.failedAt.bind (f.trouble s)
  failed : ∀ place, p.failedAt = some place → s.error.isSome = true ∧ s.oldPaused = place.pausedAt ∧
    ∃ m, place.milestone? = some m ∧
      s.session.lines = Milestone.linesOf m.left m.current (if p.phase = .finished then .failed else .running)

variable {f : Fate} {p : Progress} {s s' : Swap} {c c' : Coordinator} {around : Surroundings}
  {heard : Except Error (Option Message)} {before : Option Registration} {e : Error} {m : Milestone}

theorem verdict_congr (same : s'.newName = s.newName) : s'.verdict = s.verdict := by
  funext reply
  unfold Swap.verdict Swap.checkReply
  rw [same]

theorem trouble_congr (same : s'.newName = s.newName) : f.trouble s' = f.trouble s := by
  funext phase
  unfold trouble
  rw [verdict_congr same]

theorem trouble_caller (heeds : s.heedsCaller = true) : f.trouble s s.phase = troubleOf (f.caller s.phase) := by
  unfold Swap.heedsCaller at heeds
  split at heeds
  · cases heeds
  · rename_i stage notCapture phase
    cases stage <;> simp_all [trouble]
  · rename_i phase
    simp [trouble, phase]
  · cases heeds

theorem ahead_unfailed (on : Swap.OnCourse s) (tracks : Tracks f p s) (ahead : s.phase.milestone? = some m) :
    p.failedAt = none := by
  cases place : p.failedAt with
  | none => rfl
  | some place =>
    have failed := (tracks.failed _ ‹_›).1
    rw [(on.reached ahead).error] at failed
    cases failed

/-- A swap that goes on has its next phase and keeps the rest. -/
theorem onward_tracks (on : Swap.OnCourse s) (tracks : Tracks f p s) (ahead : s.phase.milestone? = some m)
    (calm : f.trouble s s.phase = none) (phase : s'.phase = s.phase.onward) (error : s'.error = s.error) :
    Tracks f (p.next (f.stops s)) s' := by
  have unfailed := ahead_unfailed on tracks ahead
  rw [Progress.next_onward (by simp [stops, ← tracks.phase, calm])]
  refine ⟨by rw [phase, tracks.phase], ?_, ?_⟩
  · rw [error, tracks.error]
    simp [unfailed]
  · intro place same
    simp [unfailed] at same

theorem fails_tracks (on : Swap.OnCourse s) (tracks : Tracks f p s) (ahead : s.phase.milestone? = some m)
    (trouble : f.trouble s s.phase = some e) : Tracks f (p.next (f.stops s)) (s.failWith e) := by
  have reached := on.reached ahead
  have stopped : f.stops s p.phase = true := by simp [stops, ← tracks.phase, trouble]
  have paused : s.oldPaused = p.phase.pausedAt := by
    rw [← tracks.phase, SwapPhase.pausedAt, ahead, reached.paused]
    rfl
  simp only [Progress.next, stopped, if_true]
  refine ⟨by rw [← paused]; rfl, ?_, ?_⟩
  · have same : f.trouble (s.failWith e) = f.trouble s := trouble_congr rfl
    rw [Option.bind_some, same, ← tracks.phase, trouble]
    rfl
  · intro place same
    cases same
    refine ⟨rfl, paused, m, tracks.phase ▸ ahead, ?_⟩
    have unfinished : (if p.phase.pausedAt then SwapPhase.undoing else .closing) ≠ .finished := by
      split <;> simp
    simp only [if_neg unfinished]
    exact reached.lines

theorem back_tracks {next : SwapPhase} {since : Moment} (tracks : Tracks f p s) (calm : f.trouble s s.phase = none)
    (phase : next = s.phase.onward) (early : s.phase ≠ .finished) (live : next ≠ .finished) :
    Tracks f (p.next (f.stops s)) { s with backSince := since, phase := next } := by
  rw [Progress.next_onward (by simp [stops, ← tracks.phase, calm])]
  refine ⟨by simp only [phase, tracks.phase], tracks.error, ?_⟩
  intro place same
  obtain ⟨failed, paused, m, milestone, lines⟩ := tracks.failed place same
  refine ⟨failed, paused, m, milestone, ?_⟩
  simp only [← tracks.phase, if_neg early] at lines
  simp only [← tracks.phase, ← phase, if_neg live]
  exact lines

theorem closed_tracks (on : Swap.OnCourse s) (tracks : Tracks f p s) (phase : s.phase = .closing) (now : Instant) :
    Tracks f (p.next (f.stops s)) { s with session := s.closed now, phase := .finished } := by
  have calm : f.trouble s s.phase = none := by rw [phase]; rfl
  rw [Progress.next_onward (by simp [stops, ← tracks.phase, calm])]
  have heading := Swap.closed_heading s now
  simp only [Session.heading, Prod.mk.injEq] at heading
  refine ⟨by simp [← tracks.phase, phase, SwapPhase.onward], ?_, ?_⟩
  · have same : f.trouble { s with session := s.closed now, phase := .finished } = f.trouble s :=
      trouble_congr heading.2.2.1
    rw [same]
    exact tracks.error
  · intro place same
    obtain ⟨failed, paused, m, milestone, lines⟩ := tracks.failed place same
    refine ⟨failed, paused, m, milestone, ?_⟩
    simp only [← tracks.phase, phase, SwapPhase.onward, if_true]
    simp only [← tracks.phase, phase] at lines
    rcases Swap.closing_ended on phase with won | ⟨e, lost⟩
    · rw [won.error] at failed
      cases failed
    · exact lost.closed_lines lines now

theorem heeded_calm (met : f.Met s around heard) (heeds : s.heedsCaller = true)
    (allowed : s.context.check around.tokens around.moment = .ok ()) : f.trouble s s.phase = none := by
  rw [trouble_caller heeds, ← met.caller heeds, allowed]
  rfl

theorem entered_calm {stage : SwapStage} (met : f.Met s around heard) (phase : s.phase = .entering stage)
    (allowed : s.mayEnter around stage = .ok ()) : f.trouble s s.phase = none := by
  cases stage with
  | capture =>
    rw [phase]
    rfl
  | _ => exact heeded_calm met (by simp [Swap.heedsCaller, phase]) allowed

theorem left_calm {stage : SwapStage} (met : f.Met s around heard) (phase : s.phase = .leaving stage)
    (allowed : stage = .capture → s.context.check around.tokens around.moment = .ok ()) :
    f.trouble s s.phase = none := by
  cases stage with
  | capture => exact heeded_calm met (by simp [Swap.heedsCaller, phase]) (allowed rfl)
  | _ =>
    rw [phase]
    rfl

theorem stopped_tracks (order : Swap.InOrder before s c.registry.agents) (tracks : Tracks f p s)
    (met : f.Met s around heard) (why : Swap.Stops s c around heard e) :
    Tracks f (p.next (f.stops s)) (s.failWith e) := by
  rcases Swap.stops_reason order why with ⟨heeds, gone⟩ | ⟨asking, bad⟩
  · have trouble : f.trouble s s.phase = some e := by
      rw [trouble_caller heeds, ← met.caller heeds, gone]
      rfl
    have ahead : ∃ m, s.phase.milestone? = some m := by
      unfold Swap.heedsCaller at heeds
      split at heeds
      · cases heeds
      · rename_i phase
        exact ⟨_, by rw [phase]; rfl⟩
      · rename_i phase
        exact ⟨_, by rw [phase]; rfl⟩
      · cases heeds
    obtain ⟨m, ahead⟩ := ahead
    exact fails_tracks order.course tracks ahead trouble
  · have trouble : f.trouble s s.phase = some e := by
      rw [asking, trouble, ← met.reply asking, bad]
      rfl
    exact fails_tracks order.course tracks (m := .within .verify) (by rw [asking]; rfl) trouble

theorem moves_tracks (order : Swap.InOrder before s c.registry.agents) (tracks : Tracks f p s)
    (met : f.Met s around heard) (moves : Swap.Moves s c around heard s' c') :
    Tracks f (p.next (f.stops s)) s' := by
  have on := order.course
  cases moves with
  | opened phase | captured phase | paused phase | told phase | looked phase | enrolled phase | handed phase
  | activated phase | removed phase | won phase =>
    obtain ⟨m, ahead⟩ : ∃ m, s.phase.milestone? = some m := by rw [phase]; exact ⟨_, rfl⟩
    exact onward_tracks on tracks ahead (by rw [phase]; rfl) (by rw [phase]; rfl) rfl
  | entered phase allowed =>
    rename_i stage _
    have ahead : s.phase.milestone? = some (.entering stage) := by rw [phase]; rfl
    refine onward_tracks on tracks ahead (entered_calm met phase allowed) ?_ rfl
    rw [phase]
    cases stage <;> rfl
  | left phase allowed onward =>
    rename_i stage _
    have ahead : s.phase.milestone? = some (.leaving stage) := by rw [phase]; rfl
    refine onward_tracks on tracks ahead (left_calm met phase allowed) ?_ rfl
    simp [phase, SwapPhase.onward, onward]
  | verified phase passed =>
    have calm : f.trouble s s.phase = none := by
      rw [phase, trouble, ← met.reply phase, passed]
      rfl
    exact onward_tracks on tracks (m := .within .verify) (by rw [phase]; rfl) calm (by rw [phase]; rfl) rfl
  | vanished phase missing => exact (Swap.vanished_absurd order phase missing).elim
  | unfinished phase barred => exact (Swap.unfinished_absurd on phase barred).elim
  | unrevived phase missing => exact (Swap.unrevived_absurd order phase missing).elim
  | stopped why => exact stopped_tracks order tracks met why
  | undone phase | revived phase | resumed phase =>
    exact back_tracks tracks (by rw [phase]; rfl) (by rw [phase]; rfl) (by simp [phase]) nofun
  | closed phase => exact closed_tracks on tracks phase _
  | rested phase =>
    have still : s.phase.onward = s.phase := by rcases phase with phase | phase <;> rw [phase] <;> rfl
    have calm : f.trouble s s.phase = none := by rcases phase with phase | phase <;> rw [phase] <;> rfl
    have same : { p with phase := p.phase.onward } = p := by rw [← tracks.phase, still, tracks.phase]
    rw [Progress.next_onward (by simp [stops, ← tracks.phase, calm]), same]
    exact tracks

/-- The record of a swap that is over is the one that goes with its progress. -/
theorem over_record (on : Swap.OnCourse s) (tracks : Tracks f p s) (atEnd : s.isOver = true) :
    s.session.status = p.status ∧ s.session.lines = p.lines ∧ s.session.snapshot.isSome = true ∧
      s.session.error = s.error.map Error.text := by
  obtain ⟨before, now, rfl, ended⟩ := on.ended atEnd
  rcases ended with won | ⟨e, lost⟩
  · have unfailed : p.failedAt = none := by
      cases place : p.failedAt with
      | none => rfl
      | some place =>
        have failed := (tracks.failed _ ‹_›).1
        rw [show before.error = none from won.error] at failed
        cases failed
    simp only [won.closed_eq, Progress.status, Progress.lines, unfailed]
    refine ⟨won.status, won.lines, won.captured, ?_⟩
    simp [won.error, won.unmarred]
  · have error := tracks.error
    cases place : p.failedAt with
    | none =>
      rw [place] at error
      rw [show before.error = some e from lost.error] at error
      cases error
    | some place =>
      obtain ⟨_, paused, m, milestone, lines⟩ := tracks.failed _ ‹_›
      have finished : p.phase = .finished := tracks.phase.symm
      rw [if_pos finished] at lines
      refine ⟨?_, ?_, ?_, ?_⟩
      · simp only [lost.closed_eq, Session.finish, Progress.status, place, show before.oldPaused = _ from paused]
      · simp only [Progress.lines, place, Option.bind_some, milestone]
        exact lines
      · exact (congrArg Option.isSome (Swap.closed_snapshot before now)).trans lost.captured
      · rw [lost.closed_eq]
        simp [Session.finish, lost.error]

end Fate
end Handover
