import Handover.Proofs.Session
import Handover.Proofs.Time
import Mathlib.Data.List.Forall2

/-!
# How the record of a swap is closed

A failure or a roll-back closes an open record: the steps that run fail with its text, all else of the record stays but
for its end, and what would close it again finds it closed. A roll-back is one only from a status in which the old agent
is paused: `closing_is_exact`.
-/

namespace Handover

theorem Instant.elapsed_of_future {start now : Instant} (plain : now.Plain) (future : now.before start = true) :
    Instant.elapsed start now = ⟨0, 1⟩ := by
  have backwards : (nanosBetween start now).toNat = 0 := by
    rw [before_iff] at future
    have clock : now.second = start.second → now.secondOfDay = start.secondOfDay := fun same => by
      rw [secondOfDay, same, secondOfDay]
    unfold Plain billion at plain
    unfold nanosBetween billion
    dsimp only
    split
    · omega
    · split <;> omega
  rw [elapsed, backwards]
  rfl

/-- What closes the record of a swap that did not succeed. -/
inductive Closing where
  | failure
  | rollBack
  deriving DecidableEq, Repr

namespace SwapStatus

/-- What a record with this status becomes when it is closed. -/
def closedBy (status : SwapStatus) : Closing → SwapStatus
  | .failure => failed
  | .rollBack => if status ∈ [pausing, verifying, transferringState] then rolledBack else failed

end SwapStatus

namespace SwapStep

/-- The step ran, and has failed with a text. -/
structure FailsInto (x : SwapStep) (error : String) (now : Instant) (y : SwapStep) : Prop where
  name : y.name = x.name
  startedAt : y.startedAt = x.startedAt
  status : y.status = .failed
  error : y.error = some error
  completedAt : y.completedAt = some now
  lasted : ∃ d, y.duration = some d ∧ 1 ≤ d.toNanos
  future : now.Plain → now.before x.startedAt = true → y.duration = some ⟨0, 1⟩

theorem fail_failsInto (x : SwapStep) (error : String) (now : Instant) :
    x.FailsInto error now (x.fail error now) where
  name := rfl
  startedAt := rfl
  status := rfl
  error := rfl
  completedAt := rfl
  lasted := ⟨_, rfl, Instant.elapsed_pos _ _⟩
  future := fun plain future => congrArg some (Instant.elapsed_of_future plain future)

end SwapStep

namespace Session
variable {s t : Session} {how : Closing} {error : String} {now : Instant}

def close (s : Session) (how : Closing) (error : String) (now : Instant) : Session :=
  match how with
  | .failure => s.fail error now
  | .rollBack => s.rollBack error now

/-- The second record is the first one after it was closed. -/
structure ClosesInto (s : Session) (how : Closing) (error : String) (now : Instant) (t : Session) : Prop where
  heading : t.heading = s.heading
  snapshot : t.snapshot = s.snapshot
  steps : List.Forall₂ (fun x y => if x.status = .running then x.FailsInto error now y else y = x) s.steps t.steps
  status : t.status = s.status.closedBy how
  error : t.error = some error
  completedAt : t.completedAt = some now
  lasted : ∃ d, t.duration = some d ∧ 1 ≤ d.toNanos
  future : now.Plain → now.before s.startedAt = true → t.duration = some ⟨0, 1⟩

theorem closeStep_closes (error : String) (now : Instant) (x : SwapStep) :
    if x.status = .running then x.FailsInto error now (closeStep error now x) else closeStep error now x = x := by
  split
  · rename_i running
    have fails : closeStep error now x = x.fail error now := by simp [closeStep, SwapStep.isRunning, running]
    exact fails ▸ x.fail_failsInto error now
  · rename_i settled
    simp [closeStep, SwapStep.isRunning, settled]

theorem endWith_closes (live : s.isTerminal = false) (next : SwapStatus)
    (status : (if s.status.canBecome next then next else .failed) = s.status.closedBy how) (error : String)
    (now : Instant) : s.ClosesInto how error now (s.endWith next error now) := by
  rw [endWith_live live]
  exact {
    heading := rfl
    snapshot := rfl
    steps := List.forall₂_map_right_iff.mpr (List.forall₂_same.mpr fun x _ => closeStep_closes error now x)
    status := status
    error := rfl
    completedAt := rfl
    lasted := ⟨_, rfl, Instant.elapsed_pos _ _⟩
    future := fun plain future => congrArg some (Instant.elapsed_of_future plain future) }

theorem close_closes (live : s.isTerminal = false) (how : Closing) (error : String) (now : Instant) :
    s.ClosesInto how error now (s.close how error now) := by
  cases how with
  | failure => exact endWith_closes live .failed (by simp [SwapStatus.closedBy]) error now
  | rollBack =>
    refine endWith_closes live .rolledBack ?_ error now
    cases s.status <;> rfl

theorem close_terminal (s : Session) (how : Closing) (error : String) (now : Instant) :
    (s.close how error now).isTerminal = true := by
  cases ended : s.isTerminal with
  | true => cases how <;> simp [close, fail, rollBack, endWith, ended]
  | false =>
    rw [isTerminal, (close_closes ended how error now).status]
    cases how with
    | failure => rfl
    | rollBack =>
      unfold SwapStatus.closedBy
      dsimp only
      split <;> rfl

theorem close_ended (ended : s.isTerminal = true) (how : Closing) (error : String) (now : Instant) :
    s.close how error now = s := by
  cases how <;> exact if_pos ended

/-- An open record is closed exactly, whatever its steps and its clock are, and nothing closes it again. -/
theorem closing_is_exact (live : s.isTerminal = false) (how : Closing) (error : String) (now : Instant) :
    let t := s.close how error now
    s.ClosesInto how error now t ∧
      ∀ more : List (Closing × String × Instant), more.foldl (fun t c => t.close c.1 c.2.1 c.2.2) t = t := by
  intro t
  refine ⟨close_closes live how error now, fun more => ?_⟩
  have ended : t.isTerminal = true := close_terminal s how error now
  induction more with
  | nil => rfl
  | cons c rest ih =>
    rw [List.foldl_cons, close_ended ended]
    exact ih

end Session

namespace Sample

/-- A swap that is verifying its new agent, by a clock that was set back since it began. -/
def verifying : Session where
  id := "swap"
  oldName := "elder"
  newName := "heir"
  status := .verifying
  steps := [
    { name := "pause_old_agent", status := .completed, startedAt := ⟨7, 0⟩, completedAt := some ⟨8, 0⟩,
      duration := some ⟨1, 0⟩ },
    { name := "verify_new_agent", startedAt := ⟨9, 0⟩ }]
  startedAt := ⟨6, 0⟩

end Sample

namespace Session

theorem closing_is_exact_while_verifying :
    Sample.verifying.isTerminal = false ∧
      Sample.verifying.ClosesInto .rollBack "gone" ⟨2, 0⟩ (Sample.verifying.close .rollBack "gone" ⟨2, 0⟩) ∧
      (Sample.verifying.close .rollBack "gone" ⟨2, 0⟩).close .failure "late" ⟨3, 0⟩ =
        Sample.verifying.close .rollBack "gone" ⟨2, 0⟩ := by
  have live : Sample.verifying.isTerminal = false := by decide
  obtain ⟨closes, again⟩ := closing_is_exact live .rollBack "gone" ⟨2, 0⟩
  exact ⟨live, closes, again [(.failure, "late", ⟨3, 0⟩)]⟩

end Session
end Handover
