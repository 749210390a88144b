import Handover.Session.Basic

/-!
# What happens to the record of a swap

A record lists its steps by name and status: `Lists`. The operations on a record are described by what they
make of that list.
-/

namespace Handover

theorem Span.toNanos_ofNanos (n : Nat) : (Span.ofNanos n).toNanos = n := by
  simp only [Span.ofNanos, Span.toNanos]
  exact Nat.div_add_mod' n billion

theorem Instant.elapsed_pos (start stop : Instant) : 1 ≤ (Instant.elapsed start stop).toNanos := by
  rw [Instant.elapsed, Span.toNanos_ofNanos]
  exact Nat.le_max_left 1 _

namespace SwapStep

def line (x : SwapStep) : String × StepStatus := (x.name, x.status)

@[simp]
theorem complete_line (x : SwapStep) (now : Instant) : (x.complete now).line = (x.name, .completed) := rfl

end SwapStep

namespace Session
variable {s t : Session} {name : String} {next : SwapStatus} {error : String} {now : Instant}

theorem transition_ok_iff :
    s.transition next = .ok t ↔ s.status.canBecome next = true ∧ t = { s with status := next } := by
  unfold transition
  split
  · rename_i allowed
    simp [allowed, eq_comm]
  · rename_i barred
    simp [barred]

theorem complete_ok_iff :
    s.complete now = .ok t ↔
      s.status.canBecome .completed = true ∧ t = { s with status := .completed }.finish now := by
  simp only [complete, bind, Except.bind, pure, Except.pure]
  cases moved : s.transition .completed with
  | error e =>
    have barred : ¬ s.status.canBecome .completed = true := by
      intro allowed
      rw [transition_ok_iff.mpr ⟨allowed, rfl⟩] at moved
      cases moved
    simp [barred]
  | ok u =>
    obtain ⟨allowed, rfl⟩ := transition_ok_iff.mp moved
    simp [allowed, eq_comm]

/-- What a record is of: its id, the two names and when it was begun. -/
def heading (s : Session) : String × String × String × Instant := (s.id, s.oldName, s.newName, s.startedAt)

@[simp]
theorem addStep_heading (s : Session) (name : String) (now : Instant) :
    (s.addStep name now).2.heading = s.heading := rfl

@[simp]
theorem completeStep_heading (s : Session) (index : Nat) (now : Instant) :
    (s.completeStep index now).heading = s.heading := rfl

theorem complete_heading (done : s.complete now = .ok t) : t.heading = s.heading := by
  obtain ⟨_, rfl⟩ := complete_ok_iff.mp done
  rfl

@[simp]
theorem endWith_heading (s : Session) (next : SwapStatus) (error : String) (now : Instant) :
    (s.endWith next error now).heading = s.heading := by
  unfold endWith
  split <;> rfl

@[simp]
theorem endWith_snapshot (s : Session) (next : SwapStatus) (error : String) (now : Instant) :
    (s.endWith next error now).snapshot = s.snapshot := by
  unfold endWith
  split <;> rfl

def lines (s : Session) : List (String × StepStatus) := s.steps.map SwapStep.line

@[simp]
theorem addStep_lines (s : Session) (name : String) (now : Instant) :
    (s.addStep name now).2.lines = s.lines ++ [(name, .running)] := by
  simp [lines, addStep, SwapStep.line]

theorem modify_last (earlier : List SwapStep) (x : SwapStep) (f : SwapStep → SwapStep) :
    (earlier ++ [x]).modify earlier.length f = earlier ++ [f x] := by
  induction earlier with
  | nil => rfl
  | cons y rest ih => simpa using ih

theorem completeStep_lines {before : List (String × StepStatus)} {status : StepStatus}
    (shown : s.lines = before ++ [(name, status)]) :
    (s.completeStep (s.steps.length - 1) now).lines = before ++ [(name, .completed)] := by
  obtain ⟨earlier, last, split, kept, ends⟩ := List.map_eq_append_iff.mp shown
  obtain ⟨x, rfl, line⟩ := List.map_eq_singleton_iff.mp ends
  have own : x.name = name := congrArg Prod.fst line
  simp [lines, completeStep, split, modify_last, kept, own]

theorem map_modify {α β : Type} {f : α → α} {g : α → β} (keeps : ∀ x, g (f x) = g x) (l : List α) (index : Nat) :
    (l.modify index f).map g = l.map g := by
  refine List.ext_getElem? fun i => ?_
  simp only [List.getElem?_map, List.getElem?_modify]
  cases l[i]? <;> simp [apply_ite g, keeps]

/-- What closing a step does not change stays the same when the record ends. -/
theorem endWith_map {β : Type} {g : SwapStep → β} (keeps : ∀ x, g (closeStep error now x) = g x) (s : Session)
    (next : SwapStatus) : (s.endWith next error now).steps.map g = s.steps.map g := by
  unfold endWith
  split
  · rfl
  · simp [finish, keeps]

/-- The steps that were begun. -/
def stepNames (s : Session) : List String := s.steps.map SwapStep.name

theorem stepNames_eq (s : Session) : s.stepNames = s.lines.map Prod.fst := by
  simp [stepNames, lines, SwapStep.line, Function.comp_def]

@[simp]
theorem addStep_stepNames (s : Session) (name : String) (now : Instant) :
    (s.addStep name now).2.stepNames = s.stepNames ++ [name] := by
  simp [stepNames, addStep]

@[simp]
theorem completeStep_stepNames (s : Session) (index : Nat) (now : Instant) :
    (s.completeStep index now).stepNames = s.stepNames := by
  rw [stepNames, completeStep]
  exact map_modify (f := (·.complete now)) (g := SwapStep.name) (fun _ => rfl) s.steps index

theorem complete_stepNames (done : s.complete now = .ok t) : t.stepNames = s.stepNames := by
  obtain ⟨_, rfl⟩ := complete_ok_iff.mp done
  rfl

@[simp]
theorem endWith_stepNames (s : Session) (next : SwapStatus) (error : String) (now : Instant) :
    (s.endWith next error now).stepNames = s.stepNames := by
  refine endWith_map (fun x => ?_) s next
  unfold closeStep
  split <;> rfl

theorem endWith_live (live : s.isTerminal = false) :
    s.endWith next error now =
      { s with
        steps := s.steps.map (closeStep error now)
        status := if s.status.canBecome next then next else .failed
        error := some error }.finish now := by
  simp [endWith, live]

end Session
end Handover
