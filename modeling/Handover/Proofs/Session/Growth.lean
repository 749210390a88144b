import Handover.Proofs.Session.History
import Mathlib.Logic.Relation

/-!
# How the record of a swap grows

Of two records of a swap the later one has all that the earlier one had settled: `GrowsInto`. Each operation that a swap
does on its record makes it grow, as long as no step is completed that was not running.
-/

namespace Handover
namespace Session
variable {s t u : Session} {name error : String} {now : Instant} {next : SwapStatus} {index : Nat}

/-- The second record is the first one, or what a swap has made of it. -/
structure GrowsInto (s t : Session) : Prop where
  heading : t.heading = s.heading
  status : Relation.ReflTransGen (fun a b : SwapStatus => a.canBecome b = true) s.status t.status
  /-- A step that was over is still in its place, with all that it had. -/
  settled : ∀ (i : Nat) (step : SwapStep), s.steps[i]? = some step → step.isRunning = false → t.steps[i]? = some step
  /-- The other steps are in their places as well, and those that were begun since come after them. -/
  origins : s.origins <+: t.origins
  snapshot : ∀ state, s.snapshot = some state → t.snapshot = some state
  /-- Nothing comes after a record that has ended. -/
  ended : s.isTerminal = true → t = s

theorem GrowsInto.refl (s : Session) : s.GrowsInto s :=
  ⟨rfl, .refl, fun _ _ there _ => there, List.prefix_refl _, fun _ there => there, fun _ => rfl⟩

theorem GrowsInto.trans (first : s.GrowsInto t) (second : t.GrowsInto u) : s.GrowsInto u where
  heading := second.heading.trans first.heading
  status := first.status.trans second.status
  settled := fun i step there done => second.settled i step (first.settled i step there done) done
  origins := first.origins.trans second.origins
  snapshot := fun state there => second.snapshot state (first.snapshot state there)
  ended := by
    intro ended
    have same := first.ended ended
    rw [second.ended (same ▸ ended), same]

theorem live_of_canBecome (allowed : s.status.canBecome next = true) : s.isTerminal = false := by
  cases ended : s.isTerminal with
  | false => rfl
  | true =>
    rw [SwapStatus.canBecome_ended ended next] at allowed
    cases allowed

theorem transition_grows (moved : s.transition next = .ok t) : s.GrowsInto t := by
  obtain ⟨allowed, rfl⟩ := transition_ok_iff.mp moved
  refine ⟨rfl, .single allowed, fun _ _ there _ => there, List.prefix_refl _, fun _ there => there, fun ended => ?_⟩
  exact nomatch (live_of_canBecome allowed).symm.trans ended

theorem complete_grows (done : s.complete now = .ok t) : s.GrowsInto t := by
  obtain ⟨allowed, rfl⟩ := complete_ok_iff.mp done
  refine ⟨rfl, .single allowed, fun _ _ there _ => there, List.prefix_refl _, fun _ there => there, fun ended => ?_⟩
  exact nomatch (live_of_canBecome allowed).symm.trans ended

theorem addStep_grows (live : s.isTerminal = false) (name : String) (now : Instant) :
    s.GrowsInto (s.addStep name now).2 where
  heading := rfl
  status := .refl
  settled := by
    intro i step there done
    obtain ⟨inside, _⟩ := List.getElem?_eq_some_iff.mp there
    exact (List.getElem?_append_left inside).trans there
  origins := by
    have grown := revise_origins s (.addStep name now)
    exact grown ▸ List.prefix_append _ _
  snapshot := fun _ there => there
  ended := fun ended => nomatch live.symm.trans ended

theorem completeStep_grows (live : s.isTerminal = false)
    (running : ∀ step, s.steps[index]? = some step → step.isRunning = true) (now : Instant) :
    s.GrowsInto (s.completeStep index now) where
  heading := rfl
  status := .refl
  settled := by
    intro i step there done
    have other : index ≠ i := by
      rintro rfl
      exact nomatch done.symm.trans (running step there)
    have kept : (s.steps.modify index (·.complete now))[i]? = s.steps[i]? := by
      simp [other]
    exact kept.trans there
  origins := by
    have same := revise_origins s (.completeStep index now)
    exact same ▸ List.prefix_append _ _
  snapshot := fun _ there => there
  ended := fun ended => nomatch live.symm.trans ended

theorem snapshot_grows (live : s.isTerminal = false) (none : s.snapshot = none) (state : AgentState) :
    s.GrowsInto { s with snapshot := some state } where
  heading := rfl
  status := .refl
  settled := fun _ _ there _ => there
  origins := List.prefix_refl _
  snapshot := fun _ there => nomatch none.symm.trans there
  ended := fun ended => nomatch live.symm.trans ended

/-- What closes a record leaves the steps that were over. -/
theorem endWith_grows (s : Session) (next : SwapStatus) (error : String) (now : Instant) :
    s.GrowsInto (s.endWith next error now) where
  heading := endWith_heading s next error now
  status := by
    rcases endWith_status s next error now with same | allowed
    · rw [same]
    · exact .single allowed
  settled := by
    intro i step there done
    cases ended : s.isTerminal with
    | true =>
      rw [endWith, if_pos ended]
      exact there
    | false =>
      have kept : closeStep error now step = step := by rw [closeStep, done]; rfl
      rw [endWith_live ended]
      simp only [finish, List.getElem?_map, there, Option.map_some, kept]
  origins := endWith_origins s next error now ▸ List.prefix_refl _
  snapshot := by
    intro state there
    rw [endWith_snapshot, there]
  ended := fun ended => if_pos ended

end Session
end Handover
