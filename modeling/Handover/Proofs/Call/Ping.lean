import Handover.Proofs.Call

/-!
# What hangs on the ping

The record of a swap shows the verification of the new agent as completed only after an answer to the ping with
status "ok", and shows it from then on.
-/

namespace Handover

namespace Swap
variable {s s' : Swap} {c c' : Coordinator} {around : Surroundings} {heard : Except Error (Option Message)}
  {m : Milestone} {e : Error}

/-- Whether the new agent has answered the ping. -/
def Verified (s : Swap) : Prop :=
  s.phase = .leaving .verify ∨ (SwapStage.verify.text, StepStatus.completed) ∈ s.session.lines

theorem verdict_ok_iff :
    s.verdict heard = .ok () ↔
      ∃ m r, heard = .ok (some m) ∧ m.decodePayload Reply.decode = .ok r ∧ r.status = "ok" := by
  constructor
  · intro passed
    unfold verdict at passed
    split at passed
    · cases passed
    · cases passed
    · rename_i m
      cases decoded : m.decodePayload Reply.decode with
      | error e => simp [checkReply, decoded, bind, Except.bind] at passed
      | ok r =>
        by_cases status : r.status = "ok"
        · exact ⟨m, r, rfl, decoded, status⟩
        · simp [checkReply, decoded, bind, Except.bind, Reply.isOk, status] at passed
  · rintro ⟨m, r, rfl, decoded, status⟩
    simp [verdict, checkReply, decoded, bind, Except.bind, Reply.isOk, status, pure, Except.pure]

theorem reached_lines {stage : SwapStage} (on : OnCourse s) (phase : s.phase = .leaving stage) :
    s.session.lines = Milestone.linesOf stage.earlier (some stage) :=
  (on.reached (m := .leaving stage) (by rw [phase]; rfl)).lines

theorem closed_completed {stage : SwapStage} (on : OnCourse s) (phase : s.phase = .closing) (now : Instant) :
    (stage.text, StepStatus.completed) ∈ (s.closed now).lines ↔
      (stage.text, StepStatus.completed) ∈ s.session.lines := by
  rcases closing_ended on phase with won | ⟨e, lost⟩
  · rw [won.closed_eq]
  · obtain ⟨left, current, lines, _⟩ := lost.lines
    rw [lost.closed_lines lines, lines, Milestone.completed_mem_linesOf (by decide),
      Milestone.completed_mem_linesOf (by decide)]

theorem stepDone_completed (stage : SwapStage) {left : SwapStage} (on : OnCourse s)
    (phase : s.phase = .leaving left) (now : Instant) :
    (stage.text, StepStatus.completed) ∈ (s.stepDone now).lines ↔
      (stage.text, StepStatus.completed) ∈ s.session.lines ∨ stage = left := by
  have reached := on.reached (m := .leaving left) (by rw [phase]; rfl)
  rw [stepDone_lines reached, reached_lines on phase, Milestone.completed_mem_linesOf (by decide),
    Milestone.completed_mem_linesOf (by decide)]
  simp

theorem moves_line (on : OnCourse s) (moves : Moves s c around heard s' c') :
    (SwapStage.verify.text, StepStatus.completed) ∈ s'.session.lines ↔
      (SwapStage.verify.text, StepStatus.completed) ∈ s.session.lines ∨ s.phase = .leaving .verify := by
  cases moves with
  | entered phase => simp [arrive_lines, phase]
  | left phase =>
    rw [stepDone_completed _ on phase, phase]
    simp [eq_comm]
  | won phase done =>
    obtain ⟨_, rfl⟩ := Session.complete_ok_iff.mp done
    have lines := stepDone_completed .verify on phase around.time
    simp only [Session.lines, Session.finish] at lines ⊢
    rw [lines, phase]
    simp
  | unfinished phase barred => exact (unfinished_absurd on phase barred).elim
  | stopped why =>
    have elsewhere : s.phase ≠ .leaving .verify := by
      intro phase
      cases why <;> simp_all [heedsCaller]
    simp [failWith, elsewhere]
  | closed phase =>
    rw [closed_completed on phase, phase]
    simp
  | rested phase => rcases phase with phase | phase <;> simp [phase]
  | opened phase | captured phase | vanished phase | paused phase | told phase | looked phase | enrolled phase
  | verified phase | handed phase | activated phase | removed phase | undone phase | revived phase
  | unrevived phase | resumed phase => simp [phase, Session.lines, failWith]

theorem moves_verified (on : OnCourse s) (verified : s.Verified) (moves : Moves s c around heard s' c') :
    s'.Verified :=
  .inr ((moves_line on moves).mpr verified.symm)

theorem verified_moves (on : OnCourse s) (moves : Moves s c around heard s' c') (verified : s'.Verified) :
    s.Verified ∨ (s.phase = .asking ∧ s.verdict heard = .ok ()) := by
  rcases verified with phase' | line
  · cases moves with
    | verified phase verdict => exact .inr ⟨phase, verdict⟩
    | entered => split at phase' <;> cases phase'
    | stopped | vanished | unfinished =>
      simp only [failWith] at phase'
      split at phase' <;> cases phase'
    | rested => exact .inl (.inl phase')
    | _ => cases phase'
  · exact .inl ((moves_line on moves).mp line).symm

theorem verified_of_over (on : OnCourse s) (atEnd : s.isOver = true) (sound : s.error = none) : s.Verified := by
  obtain ⟨before, now, rfl, won | ⟨e, lost⟩⟩ := on.ended atEnd
  · right
    rw [won.closed_eq, won.lines]
    decide
  · rw [lost.error] at sound
    cases sound

theorem asking_of_errand {name : String} (waits : s.errand = some (.ask name .ping)) : s.phase = .asking := by
  unfold errand at waits
  split at waits
  · cases waits
  · assumption
  · cases waits
  · cases waits

end Swap

namespace Call
variable {o : Order} {c : Coordinator} {s : Swap} {call : Call} {turns : List Turn}

/-- The call waits for the answer of an agent to its ping, and gets one with status "ok". -/
def Answered (name : String) (call : Call) : Turn → Prop
  | .own _ heard => ∃ s m r, call.swap = .ok s ∧ s.errand = some (.ask name .ping) ∧ heard = .ok (some m) ∧
      m.decodePayload Reply.decode = .ok r ∧ r.status = "ok"
  | .others _ => False

def Verified (call : Call) : Prop := ∃ s, call.swap = .ok s ∧ s.Verified

theorem start_unverified : ¬ (o.start c).Verified := by
  rintro ⟨s, begun, verified⟩
  have phase := (start_fits begun).2
  have reached := (start_onCourse o c s begun).reached (by rw [phase]; rfl)
  rcases verified with leaving | line
  · rw [phase] at leaving
    cases leaving
  · rw [reached.lines] at line
    cases line

theorem turn_answered {name : String} {t : Turn} (answered : Answered name call t) : (call.turn t).Verified := by
  cases t with
  | others => exact answered.elim
  | own around heard =>
    obtain ⟨s, m, r, begun, waits, rfl, decoded, status⟩ := answered
    have passed : s.checkReply m = .ok () := Swap.verdict_ok_iff.mpr ⟨m, r, rfl, decoded, status⟩
    have phase := Swap.asking_of_errand waits
    refine ⟨_, congrArg swap (turn_own begun around _), .inl ?_⟩
    simp [Swap.advance, Swap.answer, waits, phase, passed]

theorem turn_verified {t : Turn} (on : call.Holds fun s _ => s.OnCourse) (verified : call.Verified) :
    (call.turn t).Verified := by
  obtain ⟨s, begun, verified⟩ := verified
  cases t with
  | others => exact ⟨s, begun, verified⟩
  | own around heard =>
    exact ⟨_, congrArg swap (turn_own begun around heard),
      Swap.moves_verified (on s begun) verified Swap.advance_moves⟩

theorem verified_turn {t : Turn} (on : call.Holds fun s _ => s.OnCourse) (fits : call.Holds fun s _ => o.Fits c s)
    (verified : (call.turn t).Verified) : call.Verified ∨ Answered o.newName call t := by
  obtain ⟨s', next, verified⟩ := verified
  cases t with
  | others => exact .inl ⟨s', next, verified⟩
  | own around heard =>
    cases begun : call.swap with
    | error e =>
      rw [turn_refused begun] at next
      cases next
    | ok s =>
      rw [turn_own begun around heard] at next
      cases next
      rcases Swap.verified_moves (on s begun) Swap.advance_moves verified with before | ⟨phase, passed⟩
      · exact .inl ⟨s, begun, before⟩
      · obtain ⟨m, r, heard, decoded, status⟩ := Swap.verdict_ok_iff.mp passed
        refine .inr ⟨s, m, r, begun, ?_, heard, decoded, status⟩
        simp [Swap.errand, phase, Swap.newName, (fits s begun).newName]

/-- The new agent of a call is verified if, and only if, it has answered the ping. -/
theorem play_verified_iff :
    ((o.start c).play turns).Verified ↔ (o.start c).Sometime (Answered o.newName) turns := by
  have each : (o.start c).Always
      (fun call t => (call.turn t).Verified ↔ call.Verified ∨ Answered o.newName call t) turns := by
    refine ((always_onCourse o c turns).and (always_fits o c turns)).imp ?_
    rintro call t ⟨on, fits⟩
    exact ⟨verified_turn on fits, fun why => why.elim (turn_verified on) turn_answered⟩
  rw [play_iff_sometime each]
  exact or_iff_right start_unverified

end Call
end Handover
