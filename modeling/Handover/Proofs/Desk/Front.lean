import Handover.Proofs.Desk

/-!
# What a writer changes for others

The front of a coordinator is all of it but its board and the writes that it leaves for a writer. No operation looks
behind the front, so what is seen of a desk does not tell whether there is a writer, what it has done, or how its store
behaves: `writer_is_unseen`.
-/

namespace Handover

namespace Registry
variable {α : Type} {result result' : Except Error (α × Registry)}

/-- The registry as it is when its writes were taken. -/
def bare (r : Registry) : Registry := { r with writes := [] }

def bareResult (result : Except Error (α × Registry)) : Except Error (α × Registry) :=
  result.map fun p => (p.1, p.2.bare)

theorem bareResult_cases (same : bareResult result' = bareResult result) :
    (∃ e, result = .error e ∧ result' = .error e) ∨
      ∃ a r r', result = .ok (a, r) ∧ result' = .ok (a, r') ∧ r'.bare = r.bare := by
  cases result with
  | error e =>
    cases result' with
    | error e' =>
      cases same
      exact .inl ⟨e, rfl, rfl⟩
    | ok p => cases same
  | ok p =>
    cases result' with
    | error e => cases same
    | ok p' =>
      obtain ⟨a, r⟩ := p
      obtain ⟨a', r'⟩ := p'
      obtain ⟨rfl, bare⟩ := Prod.mk.inj (Except.ok.inj same)
      exact .inr ⟨a', r, r', rfl, rfl, bare⟩

theorem modify_bare (r : Registry) (name : String) (f : Registration → Registration) :
    bareResult (r.bare.modify name f) = bareResult (r.modify name f) := by
  have same : r.bare.get name = r.get name := rfl
  simp only [modify, same, bind, Except.bind]
  cases r.get name <;> rfl

theorem register_bare (r : Registry) (a : Registration) (now : Instant) :
    bareResult (r.bare.register a now) = bareResult (r.register a now) := by
  unfold register
  split <;> rfl

end Registry

namespace Coordinator

/-- The coordinator without its board, as it is when its writes were taken. -/
def front (c : Coordinator) : Coordinator := { c with registry := c.registry.bare, board := none }

theorem front_registry {r r' : Registry} (c : Coordinator) (same : r'.bare = r.bare) :
    front { c.front with registry := r' } = front { c with registry := r } := by
  simp only [front, same]

theorem register_front (c : Coordinator) (ctx : Context) (a : Registration) (around : Surroundings) :
    (c.front.register ctx a around).map front = (c.register ctx a around).map front := by
  simp only [register, bind, Except.bind]
  cases ctx.check around.tokens around.moment with
  | error e => rfl
  | ok u =>
    dsimp only
    rcases Registry.bareResult_cases (Registry.register_bare c.registry a around.time) with
      ⟨e, failed, failed'⟩ | ⟨stored, r, r', done, done', same⟩
    · have failed' : c.front.registry.register a around.time = .error e := failed'
      rw [failed, failed']
    · have done' : c.front.registry.register a around.time = .ok (stored, r') := done'
      rw [done, done']
      exact congrArg Except.ok (front_registry c same)

theorem unregister_front (c : Coordinator) (ctx : Context) (name : String) (around : Surroundings) :
    (c.front.unregister ctx name around).map front = (c.unregister ctx name around).map front := by
  simp only [unregister, bind, Except.bind]
  cases ctx.check around.tokens around.moment <;> rfl

theorem heartbeat_front (c : Coordinator) (name : String) (now : Instant) :
    ((c.front.heartbeat name now).map (·.2)).map front = ((c.heartbeat name now).map (·.2)).map front := by
  have same : c.front.registry.get name = c.registry.get name := rfl
  simp only [heartbeat, Registry.heartbeat, Registry.modify, same, bind, Except.bind]
  cases c.registry.get name <;> rfl

theorem updateState_front (c : Coordinator) (name : String) (state : AgentState) :
    (c.front.updateState name state).map front = (c.updateState name state).map front := by
  have same : c.front.registry.get name = c.registry.get name := rfl
  simp only [updateState, Registry.updateState, Registry.modify, same, bind, Except.bind]
  cases c.registry.get name <;> rfl

theorem restore_front (c : Coordinator) (a : Registration) :
    ((c.front.registry.restore a).map fun registry => { c.front with registry }).map front =
      ((c.registry.restore a).map fun registry => { c with registry }).map front := by
  unfold Registry.restore
  split <;> rfl

end Coordinator

namespace Swap

/-- A swap after a turn, with the front of the coordinator. -/
def shown (p : Swap × Coordinator) : Swap × Coordinator := (p.1, p.2.front)

theorem orFail_shown {α : Type} {result result' : Except Error (α × Registry)} (s : Swap) (c : Coordinator)
    (next : α → Swap) (same : Registry.bareResult result' = Registry.bareResult result) :
    shown (s.orFail c.front result' next) = shown (s.orFail c result next) := by
  rcases Registry.bareResult_cases same with ⟨e, rfl, rfl⟩ | ⟨a, r, r', rfl, rfl, bare⟩
  · rfl
  · exact congrArg (Prod.mk (next a)) (Coordinator.front_registry c bare)

theorem work_shown (s : Swap) (c : Coordinator) (stage : SwapStage) (around : Surroundings) :
    shown (s.work c.front stage around) = shown (s.work c stage around) := by
  cases stage with
  | capture =>
    have same : ∀ entry, c.front.registry.capture s.oldName entry = c.registry.capture s.oldName entry := fun _ => rfl
    simp only [work, same]
    split <;> rfl
  | pause => exact orFail_shown s c _ (Registry.modify_bare _ _ _)
  | register | verify | finalize => rfl
  | transfer =>
    simp only [work]
    split
    · rfl
    · exact orFail_shown s c _ (Registry.modify_bare _ _ _)

theorem leave_shown (s : Swap) (c : Coordinator) (stage : SwapStage) (around : Surroundings) :
    shown (s.leave c.front stage around) = shown (s.leave c stage around) := by
  unfold leave
  dsimp only
  split
  · rfl
  · cases stage.next? <;> rfl

theorem undo_front (s : Swap) (c : Coordinator) : (s.undo c.front).front = (s.undo c).front := by
  unfold undo
  split
  · rfl
  split
  · rfl
  · rename_i earlier _
    by_cases nameless : earlier.name = ""
    · simp only [Registry.restore, nameless, if_true]
      rfl
    · simp only [Registry.restore, nameless, if_false]
      rfl

/-- What a swap does at a turn does not depend on what is behind the front. -/
theorem advance_shown (s : Swap) (c : Coordinator) (around : Surroundings) (heard : Except Error (Option Message)) :
    shown (s.advance c.front around heard) = shown (s.advance c around heard) := by
  unfold advance
  split
  · rfl
  unfold step
  split
  · rfl
  · rfl
  · exact work_shown s c _ around
  · exact orFail_shown s c _ (Registry.register_bare _ _ _)
  · exact orFail_shown s c _ (Registry.modify_bare _ _ _)
  · exact leave_shown s c _ around
  · exact congrArg (Prod.mk { s with backSince := around.moment, phase := .reviving }) (undo_front s c)
  · have same := Registry.modify_bare c.registry s.session.oldName fun a => { a with status := .active }
    rcases Registry.bareResult_cases same with ⟨e, failed, failed'⟩ | ⟨a, r, r', done, done', bare⟩
    · have failed : c.registry.setStatus s.session.oldName .active = .error e := failed
      have failed' : c.front.registry.setStatus s.session.oldName .active = .error e := failed'
      rw [failed, failed']
      rfl
    · have done : c.registry.setStatus s.session.oldName .active = .ok (a, r) := done
      have done' : c.front.registry.setStatus s.session.oldName .active = .ok (a, r') := done'
      rw [done, done']
      exact congrArg (Prod.mk { s with phase := .resuming }) (Coordinator.front_registry c bare)
  · rfl
  all_goals rfl

end Swap

namespace Crowd

def front (crowd : Crowd) : Crowd := { crowd with coordinator := crowd.coordinator.front }

theorem take_front (m : Member) (c : Coordinator) (b : Beat) :
    (m.take c.front b).swap = (m.take c b).swap ∧
      (m.take c.front b).coordinator.front = (m.take c b).coordinator.front := by
  unfold Member.take
  split
  · exact ⟨rfl, rfl⟩
  · rename_i swap _
    cases swap with
    | error e => exact ⟨rfl, rfl⟩
    | ok s =>
      obtain ⟨swap, front⟩ := Prod.mk.inj (Swap.advance_shown s c b.around b.heard)
      exact ⟨congrArg Except.ok swap, front⟩

theorem beat_front (crowd : Crowd) (b : Beat) : (crowd.front.beat b).front = (crowd.beat b).front := by
  unfold beat
  have same : crowd.front.members = crowd.members := rfl
  rw [same]
  split
  · rfl
  · rename_i m _
    obtain ⟨swap, front⟩ := take_front m crowd.coordinator b
    simp only [Crowd.front, put]
    rw [swap, front]

end Crowd

namespace Desk
variable {d d' : Desk}

/-- A desk without writer, board and store. -/
def front (d : Desk) : Desk := { d with crowd := d.crowd.front, writer := none, store := {} }

/-- What callers, listeners and agents get to see. -/
structure View where
  /-- How far each call has come, and how it ended. -/
  members : List Member
  agents : Table Registration
  sessions : Table Session
  events : List SwapEvent
  answers : List Answer
  sent : List Errand

def view (d : Desk) : View where
  members := d.crowd.members
  agents := d.crowd.agents
  sessions := d.coordinator.sessions
  events := d.events
  answers := d.answers
  sent := d.sent

theorem view_front (d : Desk) : d.front.view = d.view := rfl

theorem keep_front {crowd crowd' : Crowd} (d : Desk) (same : crowd'.front = crowd.front) :
    (d.front.keep crowd').front = (d.keep crowd).front := by
  calc (d.front.keep crowd').front
    _ = { d with crowd := crowd'.front, writer := none, store := {} } := rfl
    _ = { d with crowd := crowd.front, writer := none, store := {} } := by rw [same]
    _ = (d.keep crowd).front := rfl

theorem change_front {result result' : Except Error Coordinator} (d : Desk)
    (same : result'.map Coordinator.front = result.map Coordinator.front) :
    (d.front.change result').front = (d.change result).front := by
  cases result with
  | error e =>
    cases result' with
    | error e' =>
      cases same
      rfl
    | ok c' => cases same
  | ok c =>
    cases result' with
    | error e' => cases same
    | ok c' =>
      have fronts : c'.front = c.front := Except.ok.inj same
      have crowds : Crowd.front { d.front.crowd with coordinator := c' } =
          Crowd.front { d.crowd with coordinator := c } := congrArg (Crowd.mk d.crowd.members) fronts
      exact congrArg (·.give (.done (.ok ()))) (keep_front d crowds)

theorem beat_front (d : Desk) (b : Beat) : (d.front.beat b).front = (d.beat b).front := by
  have crowds := Crowd.beat_front d.crowd b
  have members : (d.crowd.front.beat b).members = (d.crowd.beat b).members := congrArg (·.members) crowds
  have awaited : (d.crowd.front.beat b).errand? b.member = (d.crowd.beat b).errand? b.member := by
    unfold Crowd.errand?
    rw [members]
  calc (d.front.beat b).front
    _ = { (d.front.keep (d.crowd.front.beat b)).front with
          sent := d.sent ++ ((d.crowd.front.beat b).errand? b.member).toList } := rfl
    _ = { (d.keep (d.crowd.beat b)).front with sent := d.sent ++ ((d.crowd.beat b).errand? b.member).toList } := by
      rw [keep_front d crowds, awaited]
    _ = (d.beat b).front := rfl

/-- What an operation gives, changes and sends does not depend on the writer, the board and the store. -/
theorem perform_front (d : Desk) (o : Operation) : (d.front.perform o).front = (d.perform o).front := by
  cases o with
  | register ctx a around => exact change_front d (Coordinator.register_front _ ctx a around)
  | unregister ctx name around => exact change_front d (Coordinator.unregister_front _ ctx name around)
  | heartbeat name now => exact change_front d (Coordinator.heartbeat_front _ name now)
  | updateState name state => exact change_front d (Coordinator.updateState_front _ name state)
  | restore a => exact change_front d (Coordinator.restore_front _ a)
  | beat member around bus => exact beat_front d { member, around, heard := bus d.sent }
  | get | list | stale | session | sessions | flush => rfl

theorem write_front (d : Desk) : d.write.front = d.front := by
  unfold write
  split
  · rfl
  · split <;> rfl

theorem after_front (same : d.front = d'.front) (occurrences : List Occurrence) :
    (d.after occurrences).front = (d'.performAll (occurrences.filterMap Occurrence.operation?)).front := by
  induction occurrences generalizing d d' with
  | nil => exact same
  | cons x rest ih =>
    cases x with
    | operation o =>
      refine ih ?_
      calc (d.perform o).front
        _ = (d.front.perform o).front := (perform_front d o).symm
        _ = (d'.front.perform o).front := by rw [same]
        _ = (d'.perform o).front := perform_front d' o
    | write => exact ih ((write_front d).trans same)
    | store s => exact ih same

/-- Whatever board and settings for it a coordinator was opened with, and whatever its writer and its store do in
between, the same operations are seen to do the same as without a board. -/
theorem writer_is_unseen (orders : List Order) (config : Config) (blackboard : BlackboardConfig)
    (board : Option Blackboard) (store : Store) (occurrences : List Occurrence) :
    ((opened orders { config with blackboard } board store).after occurrences).view =
      ((opened orders config none {}).performAll (occurrences.filterMap Occurrence.operation?)).view := by
  have same : (opened orders { config with blackboard } board store).front = (opened orders config none {}).front := rfl
  have fronts := after_front same occurrences
  rw [← view_front, fronts, view_front]

end Desk
end Handover
