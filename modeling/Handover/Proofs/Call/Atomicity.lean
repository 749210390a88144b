import Handover.Proofs.Call

/-!
# A call that fails takes back what it did

Before the old agent is paused a swap changes no agent, so a swap that fails there has nothing to take back. A
swap that is rolled back leaves the two names as it found them, but for the old agent being active.
-/

namespace Handover

namespace Swap
variable {s s' : Swap} {c c' : Coordinator} {around : Surroundings} {heard : Except Error (Option Message)}
  {m : Milestone} {e : Error}

/-- Whether the swap has paused the old agent. -/
def Touched (s : Swap) : Prop := s.oldPaused = true ∨ s.phase = .telling

theorem moves_touched (touched : s.Touched) (moves : Moves s c around heard s' c') : s'.Touched := by
  rcases touched with paused | telling
  · cases moves with
    | told => exact .inl rfl
    | _ => exact .inl paused
  · cases moves with
    | told => exact .inl rfl
    | stopped why => cases why <;> simp_all [heedsCaller]
    | rested phase => simp [telling] at phase
    | _ => simp_all

theorem paused_of_milestone (on : OnCourse s) (milestone : s.phase.milestone? = some m) (paused : m.paused = true) :
    s.oldPaused = true :=
  (on.reached milestone).paused.trans paused

theorem untouched_moves (on : OnCourse s) (moves : Moves s c around heard s' c') (untouched : ¬ s'.Touched) :
    c'.registry.agents = c.registry.agents := by
  -- Every turn that writes an agent but the pause itself comes after the pause.
  have early : s.oldPaused = true → False := fun paused => untouched (moves_touched (.inl paused) moves)
  cases moves with
  | paused phase => exact (untouched (.inr rfl)).elim
  | enrolled phase => exact (early (paused_of_milestone on (m := .within .register) (by rw [phase]; rfl) rfl)).elim
  | handed phase => exact (early (paused_of_milestone on (m := .within .transfer) (by rw [phase]; rfl) rfl)).elim
  | activated phase => exact (early (paused_of_milestone on (m := .within .transfer) (by rw [phase]; rfl) rfl)).elim
  | removed phase => exact (early (paused_of_milestone on (m := .within .finalize) (by rw [phase]; rfl) rfl)).elim
  | undone phase => exact (early (on.turnedBack (.inl phase)).1).elim
  | revived phase => exact (early (on.turnedBack (.inr (.inl phase))).1).elim
  | _ => rfl

theorem failed_status (on : OnCourse s) (atEnd : s.isOver = true) (failed : s.error = some e) :
    s.session.status = if s.oldPaused then .rolledBack else .failed := by
  obtain ⟨before, now, rfl, ended⟩ := on.ended atEnd
  rcases ended with won | ⟨e', lost⟩
  · rw [won.error] at failed
    cases failed
  · simp [lost.closed_eq, Session.finish]

end Swap

namespace Call
variable {o : Order} {c : Coordinator} {s s' : Swap} {call : Call} {turns : List Turn} {name : String} {e : Error}

theorem untouched_always (untouched : ∀ s, ((o.start c).play turns).swap = .ok s → ¬ s.Touched) :
    (o.start c).Always (Does fun before after => after = before) turns := by
  have early := always_before (fun _ _ _ _ _ _ touched moves => Swap.moves_touched touched moves) untouched
  refine (early.and (always_onCourse o c turns)).imp ?_
  rintro call t ⟨early, on⟩
  cases t with
  | others c => trivial
  | own around heard =>
    cases begun : call.swap with
    | error e => simp [Does, turn, begun]
    | ok s =>
      have later := turn_own begun around heard
      have same := Swap.untouched_moves (on s begun) Swap.advance_moves (early _ (congrArg swap later))
      simpa [Does, agents, later] using same

theorem does_elsewhere {t : Turn} (kept : call.Holds (o.Kept c)) :
    Does (fun before after => ∀ name, name ≠ o.oldName → name ≠ o.newName → after.get? name = before.get? name)
      call t := by
  cases t with
  | others c => trivial
  | own around heard =>
    intro name notOld notNew
    cases begun : call.swap with
    | error e => simp [turn, begun]
    | ok s =>
      obtain ⟨order, fits⟩ := kept s begun
      rw [turn_own begun around heard]
      exact Swap.moves_elsewhere order Swap.advance_moves (fits.oldName ▸ notOld) (fits.newName ▸ notNew)

/-- A call that fails changed no agent, or brought both names back to what they were and resumed the old agent. -/
theorem failure_is_undone {session : Option Session} (made : c.registry.Made)
    (spared : (o.start c).Always (Spares [o.oldName, o.newName]) turns)
    (ended : ((o.start c).play turns).outcome? = some (.failed e session)) :
    (∀ record, session = some record → record.status = .failed ∨ record.status = .rolledBack) ∧
    ((∀ record, session = some record → record.status = .failed) →
      (o.start c).Always (Does fun before after => after = before) turns) ∧
    (∀ record, session = some record → record.status = .rolledBack →
      (∃ old, c.registry.agents.get? o.oldName = some old ∧
        ((o.start c).play turns).agents.get? o.oldName = some { old with status := .active }) ∧
      ((o.start c).play turns).agents.get? o.newName = c.registry.agents.get? o.newName ∧
      (o.start c).Always (Does fun before after =>
        ∀ name, name ≠ o.oldName → name ≠ o.newName → after.get? name = before.get? name) turns) := by
  rcases failed_cases ended with ⟨refused, rfl⟩ | ⟨s, ends, atEnd, failed, rfl⟩
  · refine ⟨fun _ same => (nomatch same), fun _ => untouched_always ?_, fun _ same => (nomatch same)⟩
    intro s ends
    rw [refused] at ends
    cases ends
  have on := play_onCourse o c turns s ends
  have status := Swap.failed_status on atEnd failed
  refine ⟨?_, ?_, ?_⟩
  · intro record same
    obtain rfl := Option.some.inj same
    cases paused : s.oldPaused <;> simp [status, paused]
  · intro unpaused
    have failedRecord := unpaused s.session rfl
    refine untouched_always fun s' ends' => ?_
    rw [ends] at ends'
    cases ends'
    rintro (paused | telling)
    · simp [paused, failedRecord] at status
    · simp [Swap.isOver, telling] at atEnd
  · intro record same rolledBack
    obtain rfl := Option.some.inj same
    have paused : s.oldPaused = true := by
      cases paused : s.oldPaused with
      | true => rfl
      | false => simp [paused, rolledBack] at status
    obtain ⟨order, fits⟩ := play_kept made spared s ends
    obtain ⟨oldEntry, newEntry⟩ := (Swap.over_entries order.stands atEnd).1 (by simp [failed])
    rw [fits.oldName, paused] at oldEntry
    rw [fits.newName] at newEntry
    exact ⟨⟨s.old, fits.old, oldEntry⟩, newEntry, (always_kept made spared).imp fun call t kept => does_elsewhere kept⟩

theorem failure_is_undone_without_reply :
    ((Sample.order.start Sample.coordinator).play (Sample.turns Sample.unanswered)).agents.get? "elder" =
        some { Sample.worker with status := .active } ∧
      ((Sample.order.start Sample.coordinator).play (Sample.turns Sample.unanswered)).agents.get? "heir" =
        some Sample.earlier := by
  obtain ⟨e, record, ended, rolledBack⟩ : ∃ e record,
      ((Sample.order.start Sample.coordinator).play (Sample.turns Sample.unanswered)).outcome? =
        some (.failed e (some record)) ∧ record.status = .rolledBack := ⟨_, _, rfl, rfl⟩
  obtain ⟨_, _, restored⟩ := failure_is_undone Sample.made (Sample.spared _) ended
  obtain ⟨⟨old, found, resumed⟩, back, _⟩ := restored record rfl rolledBack
  cases found
  exact ⟨resumed, back⟩

end Call
end Handover
