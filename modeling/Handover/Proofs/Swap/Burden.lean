import Handover.Proofs.Swap.Edits

/-!
# Where the old agent's burden is during a swap

Until a swap removes the old agent the entry of that agent keeps its state, and once the swap has handed the state
over, the entry of the new agent carries the same burden, whatever other agents there are: `Edit.oldState`,
`moves_laden`.
-/

namespace Handover

/-- What an agent works with: its memory, its tasks, the one in its hands, and its counters. -/
abbrev Burden := Table Json × List AgentTask × Option AgentTask × Metrics

/-- The state of an agent but for the configuration and the history. -/
def AgentState.burden (s : AgentState) : Burden := (s.memory, s.pendingTasks, s.activeTask, s.metrics)

namespace Swap
variable {s s' : Swap} {c c' : Coordinator} {around : Surroundings} {heard : Except Error (Option Message)}
  {agents : Table Registration} {a : Registration} {w : BoardWrite} {r r' : Registry}
  {burden : Burden}

/-- The swap has removed the old agent, and has not failed since. -/
def HasRemoved (s : Swap) : Prop :=
  s.phase = .leaving .finalize ∨ (s.phase = .closing ∨ s.phase = .finished) ∧ s.error = none

/-- The swap has handed the state over, and has not failed since. -/
def HasHanded (s : Swap) : Prop := s.phase.standing? = some .handed ∨ s.HasRemoved

/-- Everything the swap has of the old agent's state is this burden. -/
structure Laden (burden : Burden) (s : Swap)
    (agents : Table Registration) : Prop where
  found : s.old.state.burden = burden
  captured : ∀ snapshot, s.session.snapshot = some snapshot → snapshot.burden = burden
  handed : s.HasHanded → ∃ a, agents.get? s.session.newName = some a ∧ a.state.burden = burden

theorem not_handed (phase : s.phase = .leaving .register ∨ s.phase = .reviving) : ¬ s.HasHanded := by
  rcases phase with phase | phase <;> simp [HasHanded, HasRemoved, phase, SwapPhase.standing?]

theorem Edit.oldState (edit : Edit s s' agents w) (grounded : Grounded s) :
    (s'.phase = .leaving .finalize ∧ (w.change agents).get? s.session.oldName = none) ∨
      ((w.change agents).get? s.session.oldName).map Registration.state =
        (agents.get? s.session.oldName).map Registration.state := by
  have differ := Ne.symm grounded.sensible.differ
  cases edit with
  | record => exact .inr rfl
  | status own found =>
    right
    simp only [BoardWrite.change, Table.get?_insert]
    split
    · rename_i same
      rw [same, found]
      rfl
    · rfl
  | enrolled => exact .inr (congrArg _ (Table.get?_insert_of_ne differ _ _))
  | handed _ own => exact .inr (congrArg _ (Table.get?_insert_of_ne (own ▸ differ) _ _))
  | removed phase => exact .inl ⟨phase, Table.get?_erase_self _ _⟩
  | withdrawn => exact .inr (congrArg _ (Table.get?_erase_of_ne differ _))
  | restored _ there =>
    exact .inr (congrArg _ (Table.get?_insert_of_ne (grounded.displaced _ there ▸ differ) _ _))

theorem Edits.oldState (edits : Edits s s' r r') (grounded : Grounded s) :
    (s'.phase = .leaving .finalize ∧ r'.agents.get? s.session.oldName = Option.none) ∨
      (r'.agents.get? s.session.oldName).map Registration.state =
        (r.agents.get? s.session.oldName).map Registration.state := by
  cases edits with
  | none same =>
    rw [same]
    exact .inr rfl
  | one edit notes =>
    rw [notes.agents]
    exact edit.oldState grounded

/-- Whoever stands under the old name stood there before, in the same state. -/
theorem Edits.old_was (edits : Edits s s' r r') (grounded : Grounded s)
    (there : r'.agents.get? s.session.oldName = some a) :
    ∃ b, r.agents.get? s.session.oldName = some b ∧ b.state = a.state := by
  rcases edits.oldState grounded with ⟨_, gone⟩ | same
  · exact nomatch gone.symm.trans there
  · rw [there, Option.map_some] at same
    exact Option.map_eq_some_iff.mp same.symm

theorem Edits.old_stays (edits : Edits s s' r r') (grounded : Grounded s)
    (there : r.agents.get? s.session.oldName = some a) :
    s'.phase = .leaving .finalize ∨ ∃ b, r'.agents.get? s.session.oldName = some b := by
  rcases edits.oldState grounded with ⟨phase, _⟩ | same
  · exact .inl phase
  · rw [there, Option.map_some] at same
    obtain ⟨b, still, _⟩ := Option.map_eq_some_iff.mp same
    exact .inr ⟨b, still⟩

theorem Edits.old_burden (edits : Edits s s' r r') (grounded : Grounded s)
    (old : ∀ a, r.agents.get? s.session.oldName = some a → a.state.burden = burden)
    (there : r'.agents.get? s.session.oldName = some a) : a.state.burden = burden := by
  obtain ⟨b, was, state⟩ := edits.old_was grounded there
  exact state ▸ old b was

theorem begun_laden {ctx : Context} {oldName newName id : String} {changes : Table Json} {now : Instant}
    (begun : begin? r ctx oldName newName changes id now = .ok s)
    (old : ∀ a, r.agents.get? oldName = some a → a.state.burden = burden) : Laden burden s r.agents := by
  obtain ⟨_, _, _, found, rfl⟩ := begin?_cases begun
  refine ⟨old _ found, (fun _ captured => nomatch captured), fun handed => ?_⟩
  simp [HasHanded, HasRemoved, SwapPhase.standing?] at handed

/-- The new agent of a swap that has handed the state over keeps it. -/
theorem Edit.newState (edit : Edit s s' agents w) (grounded : Grounded s) (handed : s'.HasHanded) :
    (∃ snapshot a, s.session.snapshot = some snapshot ∧
        (w.change agents).get? s.session.newName = some a ∧ a.state.burden = snapshot.burden) ∨
      ((w.change agents).get? s.session.newName).map Registration.state =
        (agents.get? s.session.newName).map Registration.state := by
  have differ := grounded.sensible.differ
  cases edit with
  | record => exact .inr rfl
  | status own found =>
    right
    simp only [BoardWrite.change, Table.get?_insert]
    split
    · rename_i same
      rw [same, found]
      rfl
    · rfl
  | enrolled phase => exact absurd handed (not_handed (.inl phase))
  | handed _ own _ captured =>
    left
    simp only [BoardWrite.change, own]
    exact ⟨_, _, captured, Table.get?_insert_self _ _ _, rfl⟩
  | removed => exact .inr (congrArg _ (Table.get?_erase_of_ne differ _))
  | withdrawn phase | restored phase => exact absurd handed (not_handed (.inr phase))

theorem moves_handed (on : OnCourse s) (moves : Moves s c around heard s' c') (handed : s'.HasHanded) :
    s.HasHanded ∨ ∃ snapshot now a, s.session.snapshot = some snapshot ∧
      c.registry.updateState s.newName (Swap.handed snapshot s.changes s.session.id s.session.oldName now) =
        .ok (a, c'.registry) := by
  cases moves with
  | entered phase =>
    rename_i stage _ _
    cases stage <;> simp [HasHanded, HasRemoved, phase, SwapPhase.standing?] at handed ⊢
  | left phase _ onward =>
    rename_i stage _ _
    cases stage <;> cases onward <;> simp [HasHanded, HasRemoved, phase, SwapPhase.standing?] at handed ⊢
  | handed _ captured done => exact .inr ⟨_, _, _, captured, done⟩
  | activated phase | removed phase | won phase =>
    exact .inl (by simp [HasHanded, HasRemoved, phase, SwapPhase.standing?])
  | closed phase =>
    left
    simpa [HasHanded, HasRemoved, phase, SwapPhase.standing?] using handed
  | unrevived phase =>
    have failed := (on.turnedBack (.inr (.inl phase))).2
    simp [HasHanded, HasRemoved, SwapPhase.standing?] at handed
    simp [handed] at failed
  | resumed phase =>
    have failed := (on.turnedBack (.inr (.inr phase))).2
    simp [HasHanded, HasRemoved, SwapPhase.standing?] at handed
    simp [handed] at failed
  | stopped | vanished | unfinished =>
    simp only [HasHanded, HasRemoved, failWith] at handed
    split at handed <;> simp [SwapPhase.standing?] at handed
  | rested => exact .inl handed
  | _ => simp [HasHanded, HasRemoved, SwapPhase.standing?] at handed

theorem moves_captured (laden : Laden burden s c.registry.agents) (named : s.oldName = s.session.oldName)
    (old : ∀ a, c.registry.agents.get? s.session.oldName = some a → a.state.burden = burden)
    (moves : Moves s c around heard s' c') :
    ∀ snapshot, s'.session.snapshot = some snapshot → snapshot.burden = burden := by
  intro snapshot captured
  cases moves with
  | captured _ found =>
    cases captured
    exact old _ (named ▸ found)
  | vanished =>
    cases captured
    exact laden.found
  | won _ done =>
    obtain ⟨_, rfl⟩ := Session.complete_ok_iff.mp done
    exact laden.captured snapshot captured
  | closed => exact laden.captured snapshot ((closed_snapshot s around.time).symm.trans captured)
  | _ => exact laden.captured snapshot captured

theorem moves_laden (named : Registry.Named c.registry.agents) (grounded : Grounded s) (on : OnCourse s)
    (laden : Laden burden s c.registry.agents)
    (old : ∀ a, c.registry.agents.get? s.session.oldName = some a → a.state.burden = burden)
    (moves : Moves s c around heard s' c') : Laden burden s' c'.registry.agents := by
  have terms := moves_terms moves
  simp only [Swap.terms, Session.heading, Prod.mk.injEq] at terms
  obtain ⟨_, same, _, _, _, newName, _⟩ := terms
  refine ⟨same ▸ laden.found, moves_captured laden (oldName_eq grounded.sensible) old moves, fun handed => ?_⟩
  rw [newName]
  rcases moves_handed on moves handed with before | ⟨snapshot, now, b, captured, done⟩
  · obtain ⟨a, there, carries⟩ := laden.handed before
    cases moves_edits named grounded moves with
    | none same =>
      rw [same]
      exact ⟨a, there, carries⟩
    | one edit notes =>
      rw [notes.agents]
      rcases edit.newState grounded handed with ⟨snapshot, b, captured, entered, own⟩ | kept
      · exact ⟨b, entered, own.trans (laden.captured snapshot captured)⟩
      · rw [there, Option.map_some, Option.map_eq_some_iff] at kept
        obtain ⟨b, still, state⟩ := kept
        exact ⟨b, still, state ▸ carries⟩
  · obtain ⟨a, _, _, changed⟩ := Registry.modify_ok done
    rw [changed]
    exact ⟨_, Table.get?_insert_self _ _ _, laden.captured snapshot captured⟩

theorem moves_removed (on : OnCourse s) (removed : s.HasRemoved) (moves : Moves s c around heard s' c') :
    s'.HasRemoved := by
  cases moves with
  | left phase _ onward =>
    rename_i stage _ _
    cases stage <;> simp [HasRemoved, phase, SwapStage.next?] at removed onward
  | won phase =>
    have reached := on.reached (m := .leaving .finalize) (by rw [phase]; rfl)
    exact .inr ⟨.inl rfl, reached.error⟩
  | unfinished phase barred => exact (unfinished_absurd on phase barred).elim
  | stopped why =>
    cases why with
    | gaveUp heeds =>
      rcases removed with phase | ⟨phase | phase, _⟩ <;> simp [heedsCaller, phase] at heeds
    | _ => simp_all [HasRemoved]
  | closed phase =>
    have sound : s.error = none := by simpa [HasRemoved, phase] using removed
    exact .inr ⟨.inr rfl, sound⟩
  | rested => exact removed
  | opened phase | entered phase | captured phase | vanished phase | paused phase | told phase | looked phase
  | enrolled phase | verified phase | handed phase | activated phase | removed phase | undone phase
  | revived phase | unrevived phase | resumed phase => simp [HasRemoved, phase] at removed

end Swap
end Handover
