import Handover.Proofs.Session
import Mathlib.Data.List.Induction

/-!
# What a record goes through

A record is asked for revisions, in any order and with any arguments, and refuses those that its status does not allow.
Its status only goes forward and the steps that were begun stay: `revised_goes_forward`. Of a record that has ended all
stays but the steps, which it does not close: `ended_keeps_all_but_steps`.
-/

namespace Handover

namespace SwapStatus
variable {a b : SwapStatus}

/-- How far a swap with this status is. The three that end it are equally far. -/
def rank : SwapStatus → Nat
  | initiating => 0
  | capturingState => 1
  | pausing => 2
  | verifying => 3
  | transferringState => 4
  | completed | failed | rolledBack => 5

/-- The statuses that come before this one on every way to it, but for the first. -/
def behind : SwapStatus → List SwapStatus
  | initiating | capturingState | failed => []
  | pausing => [capturingState]
  | verifying | transferringState | rolledBack => [capturingState, pausing]
  | completed => [capturingState, pausing, transferringState]

theorem rank_lt_of_canBecome (allowed : a.canBecome b = true) : a.rank < b.rank := by
  revert allowed
  cases a <;> cases b <;> decide

theorem behind_of_canBecome (allowed : a.canBecome b = true) : ∀ x ∈ b.behind, x = a ∨ x ∈ a.behind := by
  revert allowed
  cases a <;> cases b <;> decide

theorem canBecome_ended (ended : a.isTerminal = true) (b : SwapStatus) : a.canBecome b = false := by
  revert ended
  cases a <;> cases b <;> decide

theorem canBecome_failed (live : a.isTerminal = false) : a.canBecome .failed = true := by
  revert live
  cases a <;> decide

end SwapStatus

/-- What may be asked of a record, at a time of the clock where it notes one. -/
inductive Revision where
  | addStep (name : String) (now : Instant)
  | completeStep (index : Nat) (now : Instant)
  | failStep (index : Nat) (error : String) (now : Instant)
  | transition (next : SwapStatus)
  | complete (now : Instant)
  | fail (error : String) (now : Instant)
  | rollBack (error : String) (now : Instant)

namespace Revision

/-- The step that is begun, with the time of that. -/
def begun? : Revision → Option (String × Instant)
  | addStep name now => some (name, now)
  | _ => none

/-- Whether it is about a step of a record with so many of them. -/
def reaches (count : Nat) : Revision → Bool
  | addStep .. => true
  | completeStep index _ | failStep index .. => index < count
  | _ => false

end Revision

namespace SwapStep

def origin (x : SwapStep) : String × Instant := (x.name, x.startedAt)

end SwapStep

namespace Session
variable {s : Session} {r : Revision} {revisions more : List Revision} {status : SwapStatus} {now : Instant} {e : Error}

/-- A record that refuses a change stays as it is. -/
def orSame (s : Session) : Except Error Session → Except Error Unit × Session
  | .ok t => (.ok (), t)
  | .error e => (.error e, s)

def revise (s : Session) : Revision → Except Error Unit × Session
  | .addStep name now => (.ok (), (s.addStep name now).2)
  | .completeStep index now => (.ok (), s.completeStep index now)
  | .failStep index error now => (.ok (), s.failStep index error now)
  | .transition next => s.orSame (s.transition next)
  | .complete now => s.orSame (s.complete now)
  | .fail error now => (.ok (), s.fail error now)
  | .rollBack error now => (.ok (), s.rollBack error now)

def revised (s : Session) (revisions : List Revision) : Session := revisions.foldl (fun s r => (s.revise r).2) s

/-- The steps that were begun, with the times of that. -/
def origins (s : Session) : List (String × Instant) := s.steps.map SwapStep.origin

/-- On its way through the revisions the record has had this status. -/
def HasBeen (s : Session) (revisions : List Revision) (status : SwapStatus) : Prop :=
  ∃ earlier, earlier <+: revisions ∧ (s.revised earlier).status = status

theorem revised_append (s : Session) (revisions more : List Revision) :
    s.revised (revisions ++ more) = (s.revised revisions).revised more := List.foldl_append

theorem revised_snoc (s : Session) (revisions : List Revision) (r : Revision) :
    s.revised (revisions ++ [r]) = ((s.revised revisions).revise r).2 := revised_append s revisions [r]

theorem orSame_refused {result : Except Error Session} (refused : (s.orSame result).1 = .error e) :
    (s.orSame result).2 = s := by
  cases result with
  | ok t => cases refused
  | error e => rfl

theorem revise_refused (refused : (s.revise r).1 = .error e) : (s.revise r).2 = s := by
  cases r with
  | transition | complete => exact orSame_refused refused
  | addStep | completeStep | failStep | fail | rollBack => cases refused

/-! ## One revision -/

theorem endWith_status (s : Session) (next : SwapStatus) (error : String) (now : Instant) :
    (s.endWith next error now).status = s.status ∨ s.status.canBecome (s.endWith next error now).status = true := by
  cases ended : s.isTerminal with
  | true => simp [endWith, ended]
  | false =>
    right
    rw [endWith_live ended]
    simp only [finish]
    split
    · rename_i allowed
      exact allowed
    · exact SwapStatus.canBecome_failed ended

/-- The status stays, or the record moves to one that it may take. -/
theorem revise_status (s : Session) (r : Revision) :
    (s.revise r).2.status = s.status ∨ s.status.canBecome (s.revise r).2.status = true := by
  cases r with
  | addStep | completeStep | failStep => exact .inl rfl
  | transition next =>
    cases moved : s.transition next with
    | error e => simp [revise, moved, orSame]
    | ok t =>
      obtain ⟨allowed, rfl⟩ := transition_ok_iff.mp moved
      simp [revise, moved, orSame, allowed]
  | complete now =>
    cases done : s.complete now with
    | error e => simp [revise, done, orSame]
    | ok t =>
      obtain ⟨allowed, rfl⟩ := complete_ok_iff.mp done
      simp [revise, done, orSame, finish, allowed]
  | fail error now => exact endWith_status s .failed error now
  | rollBack error now => exact endWith_status s .rolledBack error now

theorem endWith_origins (s : Session) (next : SwapStatus) (error : String) (now : Instant) :
    (s.endWith next error now).origins = s.origins := by
  refine endWith_map (fun x => ?_) s next
  unfold closeStep
  split <;> rfl

/-- The steps begun before stay, in their order and with their times, and a new one comes last. -/
theorem revise_origins (s : Session) (r : Revision) : (s.revise r).2.origins = s.origins ++ r.begun?.toList := by
  cases r with
  | addStep name now => simp [revise, origins, addStep, Revision.begun?, SwapStep.origin]
  | completeStep index now =>
    have same := map_modify (f := (·.complete now)) (g := SwapStep.origin) (fun _ => rfl) s.steps index
    simpa [revise, origins, completeStep, Revision.begun?] using same
  | failStep index error now =>
    have same := map_modify (f := (·.fail error now)) (g := SwapStep.origin) (fun _ => rfl) s.steps index
    simpa [revise, origins, failStep, Revision.begun?] using same
  | transition next =>
    cases moved : s.transition next with
    | error e => simp [revise, moved, orSame, Revision.begun?]
    | ok t =>
      obtain ⟨_, rfl⟩ := transition_ok_iff.mp moved
      simp [revise, moved, orSame, Revision.begun?, origins]
  | complete now =>
    cases done : s.complete now with
    | error e => simp [revise, done, orSame, Revision.begun?]
    | ok t =>
      obtain ⟨_, rfl⟩ := complete_ok_iff.mp done
      simp [revise, done, orSame, finish, Revision.begun?, origins]
  | fail error now => exact (endWith_origins s .failed error now).trans (List.append_nil _).symm
  | rollBack error now => exact (endWith_origins s .rolledBack error now).trans (List.append_nil _).symm

/-- An ended record refuses to move, and ignores what would end it again. -/
theorem revise_ended (ended : s.isTerminal = true) (r : Revision) :
    (s.revise r).2 = { s with steps := (s.revise r).2.steps } ∧
      (r.reaches s.steps.length = false → (s.revise r).2 = s) := by
  have barred : ∀ next, s.status.canBecome next = false := SwapStatus.canBecome_ended ended
  cases r with
  | addStep name now => exact ⟨rfl, nofun⟩
  | completeStep index now =>
    refine ⟨rfl, fun beyond => ?_⟩
    have outside : s.steps.length ≤ index := by simpa [Revision.reaches] using beyond
    simp [revise, completeStep, List.modify_eq_self outside]
  | failStep index error now =>
    refine ⟨rfl, fun beyond => ?_⟩
    have outside : s.steps.length ≤ index := by simpa [Revision.reaches] using beyond
    simp [revise, failStep, List.modify_eq_self outside]
  | transition next => simp [revise, transition, barred, orSame]
  | complete now =>
    simp [revise, complete, transition, barred, orSame, bind, Except.bind]
  | fail error now => simp [revise, fail, endWith, ended]
  | rollBack error now => simp [revise, rollBack, endWith, ended]

/-! ## Any number of revisions -/

theorem revised_origins (s : Session) (revisions : List Revision) :
    (s.revised revisions).origins = s.origins ++ revisions.filterMap Revision.begun? := by
  induction revisions generalizing s with
  | nil => exact (List.append_nil _).symm
  | cons r rest ih =>
    have first := revise_origins s r
    have later := ih (s.revise r).2
    rw [first, List.append_assoc] at later
    cases begun : r.begun? <;> simpa [revised, begun] using later

theorem revised_hasBeen (s : Session) (fresh : s.status.behind = []) (revisions : List Revision) :
    ∀ status ∈ (s.revised revisions).status.behind, s.HasBeen revisions status := by
  induction revisions using List.reverseRecOn with
  | nil => simp [revised, fresh]
  | append_singleton revisions r ih =>
    intro status passed
    have extend : s.HasBeen revisions status → s.HasBeen (revisions ++ [r]) status :=
      fun ⟨earlier, before, was⟩ => ⟨earlier, before.trans (List.prefix_append _ _), was⟩
    rw [revised_snoc] at passed
    rcases revise_status (s.revised revisions) r with same | allowed
    · rw [same] at passed
      exact extend (ih status passed)
    · rcases SwapStatus.behind_of_canBecome allowed status passed with rfl | earlier
      · exact ⟨revisions, List.prefix_append _ _, rfl⟩
      · exact extend (ih status earlier)

theorem revised_ended (ended : s.isTerminal = true) (revisions : List Revision) :
    s.revised revisions = { s with steps := (s.revised revisions).steps } := by
  induction revisions generalizing s with
  | nil => rfl
  | cons r rest ih =>
    obtain ⟨first, _⟩ := revise_ended ended r
    have still : (s.revise r).2.isTerminal = true := by rw [first]; exact ended
    have same : ∀ steps, { (s.revise r).2 with steps } = { s with steps } := fun steps => by rw [first]
    exact (ih still).trans (same _)

/-- Whatever is asked of a new record, its status only goes forward and no longer changes once it has ended, a record
that is completed or rolled back has been where that takes it, what is refused changes nothing, and the steps are those
that were begun, each with its name and its time, in that order. -/
theorem revised_goes_forward (id oldName newName : String) (begun : Instant) (revisions : List Revision) :
    let first := new id oldName newName begun
    let s := first.revised revisions
    (∀ r, (s.revise r).2.status ≠ s.status → s.status.rank < (s.revise r).2.status.rank) ∧
    (s.isTerminal = true → ∀ more, (s.revised more).status = s.status) ∧
    (s.status = .completed → first.HasBeen revisions .capturingState ∧ first.HasBeen revisions .pausing ∧
      first.HasBeen revisions .transferringState) ∧
    (s.status = .rolledBack → first.HasBeen revisions .pausing) ∧
    (∀ r e, (s.revise r).1 = .error e → (s.revise r).2 = s) ∧
    s.origins = revisions.filterMap Revision.begun? ∧ ∀ more, s.origins <+: (s.revised more).origins := by
  intro first s
  have been : ∀ status ∈ s.status.behind, first.HasBeen revisions status := revised_hasBeen first rfl revisions
  refine ⟨fun r changed => ?_, fun ended more => ?_, fun completed => ?_, fun rolledBack => ?_,
    fun r e => revise_refused, ?_, fun more => ?_⟩
  · rcases revise_status s r with same | allowed
    · exact absurd same changed
    · exact SwapStatus.rank_lt_of_canBecome allowed
  · rw [revised_ended ended]
  · rw [completed] at been
    exact ⟨been _ (by decide), been _ (by decide), been _ (by decide)⟩
  · rw [rolledBack] at been
    exact been _ (by decide)
  · exact revised_origins first revisions
  · rw [revised_origins s more]
    exact List.prefix_append _ _

/-- A record that has ended keeps all but its steps, and these too if nothing is asked about one of them. -/
theorem ended_keeps_all_but_steps (ended : s.isTerminal = true) (revisions : List Revision) :
    s.revised revisions = { s with steps := (s.revised revisions).steps } ∧
      ((∀ r ∈ revisions, r.reaches s.steps.length = false) → s.revised revisions = s) := by
  refine ⟨revised_ended ended revisions, fun apart => ?_⟩
  induction revisions with
  | nil => rfl
  | cons r rest ih =>
    have first : (s.revise r).2 = s := (revise_ended ended r).2 (apart r (.head _))
    have later := ih fun r there => apart r (.tail _ there)
    rw [revised, List.foldl_cons, first]
    exact later

end Session

namespace Sample

/-- The record of a swap that failed at its first step. -/
def lapsed : Session :=
  (Session.new "swap" "elder" "heir" ⟨0, 0⟩).revised [.addStep "capture_state" ⟨1, 0⟩, .fail "gone" ⟨2, 0⟩]

end Sample

namespace Session

theorem ended_keeps_all_but_steps_when_lapsed :
    Sample.lapsed.isTerminal = true ∧
      Sample.lapsed.revised [.transition .pausing, .rollBack "late" ⟨3, 0⟩, .completeStep 1 ⟨3, 0⟩] = Sample.lapsed := by
  have ended : Sample.lapsed.isTerminal = true := by decide
  exact ⟨ended, (ended_keeps_all_but_steps ended _).2 (by decide)⟩

/-- A record that has ended begins another step, and takes back that its last one failed. -/
theorem ended_record_goes_on :
    Sample.lapsed.isTerminal = true ∧
      Sample.lapsed.revised [.addStep "pause_old_agent" ⟨3, 0⟩] ≠ Sample.lapsed ∧
      Sample.lapsed.revised [.completeStep 0 ⟨3, 0⟩] ≠ Sample.lapsed ∧
      Sample.lapsed.revised [.failStep 0 "late" ⟨3, 0⟩] ≠ Sample.lapsed := by
  refine ⟨by decide, fun same => ?_, fun same => ?_, fun same => ?_⟩
  · exact absurd (congrArg (·.steps.length) same) (by decide)
  · exact absurd (congrArg lines same) (by decide)
  · exact absurd (congrArg (·.steps.map SwapStep.error) same) (by decide)

end Session
end Handover
