import Handover.Proofs.Call.Success
import Handover.Proofs.Crowd.OneAgent

/-!
# Writes of an agent's state while it is replaced

While a call goes on others may write the state of the old agent, and the writes are taken until the agent is removed.
The last one before the swap captures the state is the one that the new agent gets. A later one is taken just the
same, and goes with the old agent: what a swap passes on is settled when it captures, `Order.Passes`.
-/

namespace Handover

inductive Stroke where
  | own (around : Surroundings) (heard : Except Error (Option Message))
  /-- Somebody writes the state of the old agent. -/
  | write (state : AgentState)
  | others (coordinator : Coordinator)

/-- A write that was taken. -/
structure Taken where
  state : AgentState
  /-- The swap had captured the state of the old agent before. -/
  late : Bool

/-- The state after the writes that were not late. -/
def lastInTime (initial : AgentState) (writes : List Taken) : AgentState :=
  ((writes.filter fun w => !w.late).getLast?.map Taken.state).getD initial

theorem lastInTime_cons (initial : AgentState) (w : Taken) (rest : List Taken) :
    lastInTime initial (w :: rest) = lastInTime (if w.late then initial else w.state) rest := by
  unfold lastInTime
  cases late : w.late with
  | true => simp [late]
  | false => cases last : (rest.filter fun w => !w.late).getLast? <;> simp [late, List.getLast?_cons, last]

theorem Coordinator.updateState_agents {c c' : Coordinator} {name : String} {state : AgentState}
    (done : c.updateState name state = .ok c') :
    ∃ a, c.registry.agents.get? name = some a ∧
      c'.registry.agents = c.registry.agents.insert name { a with state } := by
  cases written : c.registry.updateState name state with
  | error e => simp [updateState, written, bind, Except.bind] at done
  | ok stored =>
    simp only [updateState, written, bind, Except.bind, pure, Except.pure] at done
    cases done
    obtain ⟨a, found, _, changed⟩ := Registry.modify_ok written
    exact ⟨a, found, changed⟩

namespace Swap
variable {s s' : Swap} {c c' : Coordinator} {around : Surroundings} {heard : Except Error (Option Message)}

theorem uncaptured_phase (on : OnCourse s) (uncaptured : s.session.snapshot = none) :
    s.phase = .opening ∨ s.phase = .entering .capture ∨ s.phase = .working .capture := by
  have captured : ∀ {s : Swap}, s.session.snapshot = none → s.session.snapshot.isSome ≠ true := by
    intro s none
    simp [none]
  cases on with
  | ahead milestone reached =>
    have shows := reached.captured
    rw [uncaptured] at shows
    unfold SwapPhase.milestone? at milestone
    split at milestone <;> cases milestone
    · rename_i phase; exact .inl phase
    · rename_i stage phase
      cases stage with
      | capture => exact .inr (.inl phase)
      | _ => cases shows
    · rename_i stage _ phase
      cases stage with
      | capture => exact .inr (.inr phase)
      | _ => cases shows
    all_goals cases shows
  | back _ _ lost | lost _ lost => exact absurd lost.captured (captured uncaptured)
  | won _ won => exact absurd won.captured (captured uncaptured)
  | finished before now closed ended =>
    have was : before.session.snapshot = none := by
      rw [closed] at uncaptured
      exact (closed_snapshot before now).symm.trans uncaptured
    rcases ended with won | ⟨e, lost⟩
    · exact absurd won.captured (captured was)
    · exact absurd lost.captured (captured was)

theorem uncaptured_untouched (on : OnCourse s) (uncaptured : s.session.snapshot = none) : ¬ s.Touched := by
  rintro (paused | telling)
  · rcases uncaptured_phase on uncaptured with phase | phase | phase
    all_goals
      have reached := on.reached (by rw [phase]; rfl)
      cases paused.symm.trans reached.paused
  · rcases uncaptured_phase on uncaptured with phase | phase | phase <;> cases telling.symm.trans phase

theorem moves_uncaptured (uncaptured : s'.session.snapshot = none) (moves : Moves s c around heard s' c') :
    s.session.snapshot = none := by
  cases moves with
  | captured | vanished => cases uncaptured
  | won _ done =>
    obtain ⟨_, rfl⟩ := Session.complete_ok_iff.mp done
    exact uncaptured
  | closed => exact (closed_snapshot s around.time).symm.trans uncaptured
  | _ => exact uncaptured

theorem handed_sound (on : OnCourse s) (handed : s.HasHanded) : s.error = none := by
  rcases handed with standing | phase | ⟨_, sound⟩
  · unfold SwapPhase.standing? at standing
    split at standing <;> cases standing
    all_goals
      rename_i phase
      exact (on.reached (by rw [phase]; rfl)).error
  · exact (on.reached (by rw [phase]; rfl)).error
  · exact sound

/-- Once the new agent has its state the swap does not write it again. -/
theorem moves_keep_heir (sensible : Sensible s) (handed : s.HasHanded) (still : s'.HasHanded)
    (moves : Moves s c around heard s' c') :
    (c'.registry.agents.get? s.session.newName).map Registration.state =
      (c.registry.agents.get? s.session.newName).map Registration.state := by
  cases moves with
  | activated _ done =>
    obtain ⟨a, found, _, changed⟩ := Registry.modify_ok done
    have found : c.registry.agents.get? s.session.newName = some a := found
    rw [changed, found, newName, Table.get?_insert_self]
    rfl
  | removed =>
    rw [Registry.unregister_agents, oldName_eq sensible, Table.get?_erase_of_ne sensible.differ]
  | paused phase | enrolled phase | handed phase | undone phase | revived phase =>
    simp [HasHanded, HasRemoved, phase, SwapPhase.standing?] at handed
  | _ => rfl

end Swap

/-- The swap for the order passes this burden on from the old agent to the new one. -/
structure Order.Passes (o : Order) (burden : Burden) (s : Swap) (c : Coordinator) : Prop where
  course : Swap.OnCourse s
  sensible : Swap.Sensible s
  oldName : s.session.oldName = o.oldName
  newName : s.session.newName = o.newName
  /-- Until it is captured the burden is in the entry of the old agent. -/
  current : s.session.snapshot = none → ∀ a, c.registry.agents.get? o.oldName = some a → a.state.burden = burden
  captured : s.error = none → ∀ snapshot, s.session.snapshot = some snapshot → snapshot.burden = burden
  handed : s.HasHanded → ∃ a, c.registry.agents.get? o.newName = some a ∧ a.state.burden = burden

namespace Order.Passes
variable {o : Order} {burden : Burden} {s s' : Swap} {c c' : Coordinator} {around : Surroundings}
  {heard : Except Error (Option Message)}

theorem moved_captured (passes : o.Passes burden s c) (moves : Swap.Moves s c around heard s' c') :
    s'.error = none → ∀ snapshot, s'.session.snapshot = some snapshot → snapshot.burden = burden := by
  intro sound snapshot had
  cases moves with
  | captured phase found =>
    have uncaptured : s.session.snapshot = none := by
      have reached := passes.course.reached (m := .within .capture) (by rw [phase]; rfl)
      have shows : s.session.snapshot.isSome = false := reached.captured
      exact Option.not_isSome_iff_eq_none.mp (by simp [shows])
    rw [Swap.oldName_eq passes.sensible, passes.oldName] at found
    cases had
    exact passes.current uncaptured _ found
  | won _ done =>
    obtain ⟨_, rfl⟩ := Session.complete_ok_iff.mp done
    exact passes.captured sound snapshot had
  | closed => exact passes.captured sound snapshot ((Swap.closed_snapshot s around.time).symm.trans had)
  | vanished | stopped | unfinished => cases sound
  | _ => exact passes.captured sound snapshot had

theorem moved_handed (passes : o.Passes burden s c) (moves : Swap.Moves s c around heard s' c') :
    s'.HasHanded → ∃ a, c'.registry.agents.get? o.newName = some a ∧ a.state.burden = burden := by
  intro still
  rcases Swap.moves_handed passes.course moves still with handed | ⟨snapshot, now, b, captured, done⟩
  · obtain ⟨a, there, carries⟩ := passes.handed handed
    have kept := Swap.moves_keep_heir passes.sensible handed still moves
    rw [passes.newName, there, Option.map_some, Option.map_eq_some_iff] at kept
    obtain ⟨b, still, state⟩ := kept
    exact ⟨b, still, state ▸ carries⟩
  · -- A swap that had failed would not have come to hand anything over.
    have sound : s.error = none := by
      cases error : s.error with
      | none => rfl
      | some e =>
        have failed := Swap.moves_failed (by simp [error]) moves
        simp [Swap.handed_sound (Swap.moves_onCourse passes.course moves) still] at failed
    obtain ⟨a, _, _, changed⟩ := Registry.modify_ok done
    rw [changed, ← passes.newName]
    exact ⟨_, Table.get?_insert_self _ _ _, passes.captured sound snapshot captured⟩

theorem moved (passes : o.Passes burden s c) (moves : Swap.Moves s c around heard s' c') :
    o.Passes burden s' c' := by
  have terms := Swap.moves_terms moves
  simp only [Swap.terms, Session.heading, Prod.mk.injEq] at terms
  obtain ⟨_, _, _, _, oldName, newName, _⟩ := terms
  have course := Swap.moves_onCourse passes.course moves
  refine ⟨course, Swap.moves_sensible passes.sensible moves, oldName.trans passes.oldName,
    newName.trans passes.newName, ?_, passes.moved_captured moves, passes.moved_handed moves⟩
  -- Before the capture the swap writes no agent.
  intro uncaptured a found
  rw [Swap.untouched_moves passes.course moves (Swap.uncaptured_untouched course uncaptured)] at found
  exact passes.current (Swap.moves_uncaptured uncaptured moves) a found

theorem aside (passes : o.Passes burden s c)
    (old : c'.registry.agents.get? o.oldName = c.registry.agents.get? o.oldName)
    (new : c'.registry.agents.get? o.newName = c.registry.agents.get? o.newName) : o.Passes burden s c' where
  course := passes.course
  sensible := passes.sensible
  oldName := passes.oldName
  newName := passes.newName
  current uncaptured a found := passes.current uncaptured a (old.symm.trans found)
  captured := passes.captured
  handed had := by
    obtain ⟨a, there, carries⟩ := passes.handed had
    exact ⟨a, new.trans there, carries⟩

theorem written {state : AgentState} (passes : o.Passes burden s c) (done : c.updateState o.oldName state = .ok c') :
    o.Passes (if s.session.snapshot.isSome then burden else state.burden) s c' := by
  obtain ⟨b, _, changed⟩ := Coordinator.updateState_agents done
  have differ : o.newName ≠ o.oldName := by
    rw [← passes.oldName, ← passes.newName]
    exact passes.sensible.differ
  have new : c'.registry.agents.get? o.newName = c.registry.agents.get? o.newName := by
    rw [changed, Table.get?_insert_of_ne differ]
  -- A write after the capture changes neither what was captured nor what was handed over.
  cases snapshot : s.session.snapshot with
  | some captured =>
    simp only [Option.isSome_some, if_true]
    refine { passes with current := ?_, handed := ?_ }
    · intro uncaptured
      cases snapshot.symm.trans uncaptured
    · intro had
      rw [new]
      exact passes.handed had
  | none =>
    simp only [Option.isSome_none, Bool.false_eq_true, if_false]
    have early := Swap.uncaptured_phase passes.course snapshot
    refine { passes with current := ?_, captured := ?_, handed := ?_ }
    · intro _ a found
      rw [changed, Table.get?_insert_self] at found
      cases found
      rfl
    · intro _ captured had
      cases snapshot.symm.trans had
    · intro had
      rcases early with phase | phase | phase <;>
        simp [Swap.HasHanded, Swap.HasRemoved, phase, SwapPhase.standing?] at had

end Order.Passes

namespace Call
variable {o : Order} {c : Coordinator} {call : Call} {x : Stroke} {strokes : List Stroke} {old : Registration}
  {initial : AgentState}

def afterWrite (call : Call) (name : String) (state : AgentState) : Coordinator :=
  match call.coordinator.updateState name state with
  | .ok c => c
  | .error _ => call.coordinator

def turnOf (call : Call) (name : String) : Stroke → Turn
  | .own around heard => .own around heard
  | .write state => .others (call.afterWrite name state)
  | .others c => .others c

def stroke (call : Call) (name : String) (x : Stroke) : Call := call.turn (call.turnOf name x)

/-- The call goes on while others write the state of the agent of this name. -/
def amid (call : Call) (name : String) (strokes : List Stroke) : Call :=
  strokes.foldl (fun call x => call.stroke name x) call

def hasCaptured (call : Call) : Bool :=
  match call.swap with
  | .ok s => s.session.snapshot.isSome
  | .error _ => false

def takes (call : Call) (name : String) : Stroke → List Taken
  | .write state =>
    match call.coordinator.updateState name state with
    | .ok _ => [{ state, late := call.hasCaptured }]
    | .error _ => []
  | _ => []

def taken (name : String) : Call → List Stroke → List Taken
  | _, [] => []
  | call, x :: rest => call.takes name x ++ taken name (call.stroke name x) rest

/-- Nothing but the writes and the call itself changes what is under the two names of the order. -/
def Undisturbed (o : Order) : Call → List Stroke → Prop
  | _, [] => True
  | call, x :: rest =>
    (∀ c, x = .others c → Spares [o.oldName, o.newName] call (.others c)) ∧
      Undisturbed o (call.stroke o.oldName x) rest

theorem stroke_passes (passes : call.Holds (o.Passes initial.burden))
    (spared : ∀ c, x = .others c → Spares [o.oldName, o.newName] call (.others c)) :
    (call.stroke o.oldName x).Holds (o.Passes (lastInTime initial (call.takes o.oldName x)).burden) := by
  intro s' next
  cases x with
  | own around heard =>
    cases begun : call.swap with
    | error e =>
      have refused := turn_refused begun (.own around heard)
      cases next.symm.trans refused
    | ok s =>
      have later := turn_own begun around heard
      rw [stroke, turnOf, later] at next ⊢
      cases next
      exact (passes s begun).moved Swap.advance_moves
  | others c =>
    have spared := spared c rfl
    exact (passes s' next).aside (spared o.oldName (by simp)) (spared o.newName (by simp))
  | write state =>
    have begun : call.swap = .ok s' := next
    have before := passes s' begun
    cases done : call.coordinator.updateState o.oldName state with
    | error e =>
      have same : (call.stroke o.oldName (.write state)).coordinator = call.coordinator := by
        simp [stroke, turnOf, turn, afterWrite, done]
      rw [same, takes, done]
      exact before
    | ok c =>
      have changed : (call.stroke o.oldName (.write state)).coordinator = c := by
        simp [stroke, turnOf, turn, afterWrite, done]
      have after := before.written done
      have burden : (lastInTime initial (call.takes o.oldName (.write state))).burden =
          if s'.session.snapshot.isSome then initial.burden else state.burden := by
        rw [takes, done, lastInTime_cons, hasCaptured, begun]
        dsimp only
        split <;> rfl
      rw [changed, burden]
      exact after

theorem lastInTime_append (initial : AgentState) (earlier later : List Taken) :
    lastInTime initial (earlier ++ later) = lastInTime (lastInTime initial earlier) later := by
  induction earlier generalizing initial with
  | nil => rfl
  | cons w rest ih => rw [List.cons_append, lastInTime_cons, lastInTime_cons, ih]

theorem amid_passes (passes : call.Holds (o.Passes initial.burden)) (undisturbed : call.Undisturbed o strokes) :
    (call.amid o.oldName strokes).Holds
      (o.Passes (lastInTime initial (call.taken o.oldName strokes)).burden) := by
  induction strokes generalizing call initial with
  | nil => exact passes
  | cons x rest ih =>
    have next := ih (stroke_passes passes undisturbed.1) undisturbed.2
    rw [taken, lastInTime_append]
    exact next

theorem undisturbed_of_absent (absent : ∀ x ∈ strokes, ∀ c, x ≠ .others c) (call : Call) :
    call.Undisturbed o strokes := by
  induction strokes generalizing call with
  | nil => trivial
  | cons x rest ih =>
    refine ⟨fun c same => (absent x (.head _) c same).elim, ih (fun y there => absent y (.tail _ there)) _⟩

theorem start_passes (made : c.registry.Made) (found : c.registry.agents.get? o.oldName = some old) :
    (o.start c).Holds (o.Passes old.state.burden) := by
  intro s begun
  obtain ⟨order, fits⟩ := start_kept made s begun
  have phase := (start_fits begun).2
  have reached := order.course.reached (by rw [phase]; rfl)
  refine ⟨order.course, order.sensible, fits.oldName, fits.newName, ?_, ?_, ?_⟩
  · intro _ a there
    cases found.symm.trans there
    rfl
  · intro _ snapshot captured
    have shows : s.session.snapshot.isSome = false := reached.captured
    simp [captured] at shows
  · intro had
    simp [Swap.HasHanded, Swap.HasRemoved, phase, SwapPhase.standing?] at had

/-- A completed call hands on what the old agent's state was made by the last write that was taken before the swap
captured it. -/
theorem last_write_in_time_survives {record : Session} (made : c.registry.Made)
    (found : c.registry.agents.get? o.oldName = some old) (undisturbed : (o.start c).Undisturbed o strokes)
    (ended : ((o.start c).amid o.oldName strokes).outcome? = some (.completed record)) :
    ∃ heir, ((o.start c).amid o.oldName strokes).agents.get? o.newName = some heir ∧
      heir.state.memory = (lastInTime old.state ((o.start c).taken o.oldName strokes)).memory ∧
      heir.state.pendingTasks = (lastInTime old.state ((o.start c).taken o.oldName strokes)).pendingTasks := by
  obtain ⟨s, ends, atEnd, sound, _⟩ := completed_cases ended
  have phase : s.phase = .finished := by simpa [Swap.isOver] using atEnd
  have passes := amid_passes (start_passes made found) undisturbed s ends
  obtain ⟨heir, there, carries⟩ := passes.handed (.inr (.inr ⟨.inr phase, sound⟩))
  simp only [AgentState.burden, Prod.mk.injEq] at carries
  exact ⟨heir, there, carries.1, carries.2.1⟩

end Call

namespace Sample

def rested : AgentState := { worker.state with memory := [("mood", .str "rested")] }

def hurried : AgentState := { worker.state with memory := [("mood", .str "hurried")], pendingTasks := [] }

def going (many : Nat) (heard : Except Error (Option Message)) : List Stroke :=
  List.replicate many (.own { time := ⟨2, 0⟩ } heard)

/-- One write before the swap begins its work, and one while it waits for the answer to its ping. -/
def written : List Stroke :=
  [.write rested] ++ going 13 (.ok none) ++ [.write hurried] ++ going 13 (.ok (some alive))

theorem undisturbed : (order.start office).Undisturbed order written := by
  refine Call.undisturbed_of_absent (fun x there c same => ?_) _
  subst same
  simp [written, going] at there

end Sample

namespace Call

theorem last_write_in_time_survives_of_two :
    ∃ heir, ((Sample.order.start Sample.office).amid "elder" Sample.written).agents.get? "heir" = some heir ∧
      heir.state.memory = Sample.rested.memory ∧ heir.state.pendingTasks = Sample.rested.pendingTasks := by
  have found : Sample.office.registry.agents.get? Sample.order.oldName = some Sample.worker := rfl
  obtain ⟨record, ended⟩ : ∃ record,
      ((Sample.order.start Sample.office).amid Sample.order.oldName Sample.written).outcome? =
        some (.completed record) := ⟨_, rfl⟩
  exact last_write_in_time_survives Sample.office_made found Sample.undisturbed ended

/-- A write that is taken after the capture does not reach the new agent. -/
theorem late_write_is_lost :
    (Sample.order.start Sample.office).Undisturbed Sample.order Sample.written ∧
      ((Sample.order.start Sample.office).taken "elder" Sample.written).getLast? = some ⟨Sample.hurried, true⟩ ∧
      ∃ record heir,
        ((Sample.order.start Sample.office).amid "elder" Sample.written).outcome? = some (.completed record) ∧
        ((Sample.order.start Sample.office).amid "elder" Sample.written).agents.get? "heir" = some heir ∧
        heir.state.memory ≠ Sample.hurried.memory ∧ heir.state.pendingTasks ≠ Sample.hurried.pendingTasks := by
  obtain ⟨record, heir, ended, there, memory, pendingTasks⟩ : ∃ record heir,
      ((Sample.order.start Sample.office).amid "elder" Sample.written).outcome? = some (.completed record) ∧
      ((Sample.order.start Sample.office).amid "elder" Sample.written).agents.get? "heir" = some heir ∧
      heir.state.memory = Sample.rested.memory ∧ heir.state.pendingTasks = Sample.rested.pendingTasks :=
    ⟨_, _, rfl, rfl, rfl, rfl⟩
  refine ⟨Sample.undisturbed, rfl, record, heir, ended, there, ?_, ?_⟩
  · intro same
    rw [memory] at same
    simp [Sample.rested, Sample.hurried] at same
  · intro same
    rw [pendingTasks] at same
    simp [Sample.rested, Sample.hurried, Sample.worker] at same

end Call
end Handover
