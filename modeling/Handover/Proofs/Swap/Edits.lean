import Handover.Proofs.Swap.Entries

/-!
# What a turn of a swap does to the agents

A registry leaves a write for every change, and the write says what the change was: `Notes`. A turn of a swap
makes one change at most, and `Edit` lists those it may make. All of them are of the two names of the swap, so
other agents are left alone whatever else goes on.
-/

namespace Handover

namespace BoardWrite

/-- The agents after the change that a write is of. -/
def change : BoardWrite → Table Registration → Table Registration
  | .putAgent a, agents => agents.insert a.name a
  | .removeAgent name, agents => agents.erase name
  | .putSession _, agents | .mark _, agents => agents

/-- The agent that a write is about. -/
def about? : BoardWrite → Option String
  | .putAgent a => some a.name
  | .removeAgent name => some name
  | .putSession _ | .mark _ => none

variable {w : BoardWrite} {agents : Table Registration} {name : String}

theorem change_elsewhere (other : w.about? ≠ some name) : (w.change agents).get? name = agents.get? name := by
  cases w with
  | putAgent a => exact Table.get?_insert_of_ne (fun same => other (congrArg some same.symm)) a agents
  | removeAgent gone => exact Table.get?_erase_of_ne (fun same => other (congrArg some same.symm)) agents
  | putSession | mark => rfl

end BoardWrite

namespace Registry
variable {r r' : Registry} {w : BoardWrite} {name : String} {a b : Registration}
  {f : Registration → Registration}

/-- The registry makes the change that it notes. -/
structure Notes (r : Registry) (w : BoardWrite) (r' : Registry) : Prop where
  writes : r'.writes = r.writes ++ [w]
  agents : r'.agents = w.change r.agents

theorem store_notes (r : Registry) (a : Registration) : Notes r (.putAgent a) (r.store a) := ⟨rfl, rfl⟩

theorem register_notes {now : Instant} {stored : Registration × Option Registration}
    (done : r.register a now = .ok (stored, r')) :
    Notes r (.putAgent { a with registeredAt := now, lastHeartbeat := now }) r' := by
  by_cases named : a.name = ""
  · simp [register, named] at done
  · rw [register_eq r a now named] at done
    cases done
    exact store_notes r _

theorem restore_notes (done : r.restore a = .ok r') : Notes r (.putAgent a) r' := by
  by_cases named : a.name = ""
  · simp [restore, named] at done
  · rw [restore_eq r a named] at done
    cases done
    exact store_notes r a

theorem unregister_notes (r : Registry) (name : String) : Notes r (.removeAgent name) (r.unregister name).2 :=
  ⟨rfl, rfl⟩

theorem modify_notes (named : Named r.agents) (done : r.modify name f = .ok (b, r'))
    (keeps : ∀ a, (f a).name = a.name) :
    ∃ a, r.agents.get? name = some a ∧ a.name = name ∧ b = f a ∧ Notes r (.putAgent (f a)) r' := by
  obtain ⟨a, found, rfl, _⟩ := modify_ok done
  have same := (named name a found).1
  rw [modify_found r f found] at done
  cases done
  refine ⟨a, found, same, rfl, rfl, ?_⟩
  simp only [note_agents, BoardWrite.change, keeps, same]

end Registry

namespace Swap

/-- The names of a swap make sense, and what it displaced stood under the new one. -/
structure Grounded (s : Swap) : Prop where
  sensible : Sensible s
  displaced : ∀ d, s.displaced = some d → d.name = s.session.newName

/-- What a turn from `s` to `s'` may change. -/
inductive Edit (s s' : Swap) (agents : Table Registration) : BoardWrite → Prop where
  | record (session : Session) : Edit s s' agents (.putSession session)
  | status (own : a.name = s.session.oldName ∨ a.name = s.session.newName) (found : agents.get? a.name = some a)
      (status : AgentStatus) : Edit s s' agents (.putAgent { a with status })
  | enrolled (phase : s'.phase = .leaving .register) (now : Instant) :
      Edit s s' agents (.putAgent (successor s.old s.session.newName s.changes now))
  | handed (phase : s'.phase = .activating) (own : a.name = s.session.newName)
      (found : agents.get? a.name = some a) (captured : s.session.snapshot = some snapshot) (now : Instant) :
      Edit s s' agents
        (.putAgent { a with state := handed snapshot s.changes s.session.id s.session.oldName now })
  | removed (phase : s'.phase = .leaving .finalize) : Edit s s' agents (.removeAgent s.session.oldName)
  | withdrawn (phase : s'.phase = .reviving) : Edit s s' agents (.removeAgent s.session.newName)
  | restored (phase : s'.phase = .reviving) (there : s.displaced = some d) : Edit s s' agents (.putAgent d)

/-- A turn leaves the registry alone or makes one change and notes it. -/
inductive Edits (s s' : Swap) (r r' : Registry) : Prop where
  | none (same : r' = r)
  | one (edit : Edit s s' r.agents w) (notes : Registry.Notes r w r')

variable {s s' : Swap} {c c' : Coordinator} {around : Surroundings} {heard : Except Error (Option Message)}
  {name : String} {r r' : Registry} {a : Registration} {agents : Table Registration} {w : BoardWrite}

theorem begun_grounded {ctx : Context} {old new id : String} {changes : Table Json} {now : Instant}
    (named : Registry.Named r.agents) (begun : begin? r ctx old new changes id now = .ok s) : Grounded s := by
  obtain ⟨given, differ, a, found, rfl⟩ := begin?_cases begun
  exact ⟨⟨(named old a found).1, given, differ⟩, fun _ same => nomatch same⟩

theorem moves_grounded (named : Registry.Named c.registry.agents) (grounded : Grounded s)
    (moves : Moves s c around heard s' c') : Grounded s' := by
  refine ⟨moves_sensible grounded.sensible moves, ?_⟩
  have newName : s'.session.newName = s.session.newName := congrArg (·.2.2.2.2.2.1) (moves_terms moves)
  rw [newName]
  cases moves with
  | looked => exact fun d found => (named s.session.newName d found).1
  | _ => exact grounded.displaced

theorem status_edits {status : AgentStatus} (named : Registry.Named r.agents)
    (own : name = s.session.oldName ∨ name = s.session.newName) (done : r.setStatus name status = .ok (a, r')) :
    Edits s s' r r' := by
  obtain ⟨a, found, rfl, _, notes⟩ := Registry.modify_notes named done fun _ => rfl
  exact .one (.status own found status) notes

theorem undo_edits (grounded : Grounded s) (phase : s'.phase = .reviving) :
    Edits s s' c.registry (s.undo c).registry := by
  unfold undo
  split
  · exact .none rfl
  · split
    · exact .one (.withdrawn phase) (Registry.unregister_notes _ _)
    · rename_i d there
      have given : d.name ≠ "" := grounded.displaced d there ▸ grounded.sensible.given
      rw [Registry.restore_eq _ _ given]
      exact .one (.restored phase there) (Registry.store_notes _ _)

theorem moves_edits (named : Registry.Named c.registry.agents) (grounded : Grounded s)
    (moves : Moves s c around heard s' c') : Edits s s' c.registry c'.registry := by
  have old := oldName_eq grounded.sensible
  have recorded : ∀ session event, Edits s s' c.registry ((c.storeSession session).announce event).registry :=
    fun session event => .one (.record session) ⟨rfl, rfl⟩
  cases moves with
  | opened | left | won | unfinished | closed => exact recorded _ _
  | paused _ done => exact status_edits named (.inl old) done
  | enrolled _ done =>
    have given : (successor s.old s.newName s.changes around.time).name ≠ "" := grounded.sensible.given
    rw [Registry.register_eq _ _ _ given] at done
    cases done
    exact .one (.enrolled rfl around.time) (Registry.store_notes _ _)
  | handed _ captured done =>
    obtain ⟨a, found, own, _, notes⟩ := Registry.modify_notes named done fun _ => rfl
    exact .one (.handed rfl own (own ▸ found) captured around.time) notes
  | activated _ done => exact status_edits named (.inr rfl) done
  | removed =>
    have notes := Registry.unregister_notes c.registry s.oldName
    rw [old] at notes
    exact .one (.removed rfl) (old ▸ notes)
  | undone => exact undo_edits grounded rfl
  | revived _ done => exact status_edits named (.inl rfl) done
  | _ => exact .none rfl

theorem Edit.about (edit : Edit s s' agents w) (grounded : Grounded s) (about : w.about? = some name) :
    name = s.session.oldName ∨ name = s.session.newName := by
  cases edit with
  | record => cases about
  | status own =>
    cases about
    exact own
  | enrolled | withdrawn =>
    cases about
    exact .inr rfl
  | handed _ own =>
    cases about
    exact .inr own
  | removed =>
    cases about
    exact .inl rfl
  | restored _ there =>
    cases about
    exact .inr (grounded.displaced _ there)

theorem Edit.named (edit : Edit s s' agents w) (grounded : Grounded s) (named : Registry.Named agents) :
    Registry.Named (w.change agents) := by
  cases edit with
  | record => exact named
  | status own found => exact Registry.named_insert named _ (named _ _ found).2
  | enrolled => exact Registry.named_insert named _ grounded.sensible.given
  | handed _ own found => exact Registry.named_insert named _ (named _ _ found).2
  | removed | withdrawn => exact Registry.named_erase named _
  | restored _ there =>
    exact Registry.named_insert named _ (grounded.displaced _ there ▸ grounded.sensible.given)

theorem Edits.named (edits : Edits s s' r r') (grounded : Grounded s) (named : Registry.Named r.agents) :
    Registry.Named r'.agents := by
  cases edits with
  | none same =>
    rw [same]
    exact named
  | one edit notes =>
    rw [notes.agents]
    exact edit.named grounded named

theorem Edits.elsewhere (edits : Edits s s' r r') (grounded : Grounded s) (notOld : name ≠ s.session.oldName)
    (notNew : name ≠ s.session.newName) : r'.agents.get? name = r.agents.get? name := by
  cases edits with
  | none same => rw [same]
  | one edit notes =>
    rw [notes.agents]
    refine BoardWrite.change_elsewhere fun about => ?_
    rcases edit.about grounded about with same | same
    · exact notOld same
    · exact notNew same

theorem undo_made (made : c.registry.Made) : (s.undo c).registry.Made := by
  unfold undo
  split
  · exact made
  · split
    · exact .unregister made _
    · split
      · rename_i done
        exact .restore made done
      · exact made

theorem moves_made (made : c.registry.Made) (moves : Moves s c around heard s' c') : c'.registry.Made := by
  have recorded : ∀ session event, ((c.storeSession session).announce event).registry.Made :=
    fun session event => .note made _
  cases moves with
  | opened | left | won | unfinished | closed => exact recorded _ _
  | paused _ done | activated _ done | revived _ done => exact .setStatus made done
  | enrolled _ done => exact .register made done
  | handed _ _ done => exact .updateState made done
  | removed => exact .unregister made _
  | undone => exact undo_made made
  | _ => exact made

end Swap
end Handover
