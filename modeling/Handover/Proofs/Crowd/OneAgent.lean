import Handover.Proofs.Call.Atomicity
import Handover.Proofs.Crowd
import Handover.Proofs.Swap.Burden

/-!
# Several calls to replace one agent

Nothing keeps two calls from replacing the same agent. What an agent works with is not lost as long as their
successors have different names, and a call completes only if it paused the agent before another one removed it;
with one name the state can be lost, and with two names both calls can complete.
-/

namespace Handover

namespace Swap
variable {s s' : Swap} {c c' : Coordinator} {around : Surroundings} {heard : Except Error (Option Message)}

/-- Without the old agent nothing is paused. -/
theorem moves_untouched (sensible : Sensible s) (gone : c.registry.agents.get? s.session.oldName = none)
    (untouched : ¬ s.Touched) (moves : Moves s c around heard s' c') : ¬ s'.Touched := by
  rintro (paused | telling)
  · cases moves with
    | told phase => exact untouched (.inr phase)
    | _ => exact untouched (.inl paused)
  · cases moves with
    | entered => split at telling <;> cases telling
    | paused _ done =>
      obtain ⟨a, found, _⟩ := Registry.modify_ok done
      rw [oldName_eq sensible, gone] at found
      cases found
    | stopped | vanished | unfinished =>
      unfold failWith at telling
      split at telling <;> cases telling
    | rested => exact untouched (.inr telling)
    | _ => cases telling

end Swap

/-! ## Two calls to look at -/

namespace Sample

def office : Coordinator := { registry := ({} : Registry).store worker }

def rival : Order := { order with newName := "rival", session := "swap-2" }

/-- An order for the same successor as the other one's. -/
def twin : Order := { order with session := "swap-2" }

def rivals : List Order := [order, rival]

def twins : List Order := [order, twin]

def beats (member : Nat) (many : Nat) (heard : Except Error (Option Message)) : List Beat :=
  List.replicate many { member, around := { time := ⟨2, 0⟩ }, heard }

/-- Both calls go on until they wait for the reply to their ping. -/
def asked : List Beat := beats 0 14 (.ok none) ++ beats 1 14 (.ok none)

/-- The call gets the reply and goes on to its end. -/
def won (member : Nat) : List Beat := beats member 10 (.ok (some alive))

/-- The call gets no reply and goes on to its end. -/
def lost (member : Nat) : List Beat := beats member 10 unanswered

def ran (orders : List Order) (beats : List Beat) : Crowd := (Crowd.gather orders office).play beats

def bothWon : Crowd := ran rivals (asked ++ won 0 ++ won 1)

def oneLost (orders : List Order) : Crowd := ran orders (asked ++ won 0 ++ lost 1)

theorem office_made : office.registry.Made := .restore .empty (Registry.restore_eq {} worker (by decide))

end Sample

namespace Crowd
variable {crowd crowd' : Crowd} {b : Beat} {beats before after : List Beat} {i j : Nat} {m : Member} {s : Swap}
  {name : String} {c : Coordinator} {orders : List Order} {record : Session} {old : Registration}
  {burden : Burden}

/-- All the calls are to replace this agent. -/
structure Replaces (name : String) (crowd : Crowd) : Prop where
  sane : Sane crowd
  order : ∀ i m, crowd.Has i m → m.order.oldName = name

theorem gather_replaces (made : c.registry.Made) (same : ∀ o ∈ orders, o.oldName = name) :
    (gather orders c).Replaces name :=
  ⟨gather_sane (Registry.made_named made) orders,
    fun _ _ there => same _ (List.mem_of_getElem? (gather_fresh there).2)⟩

theorem goes_replaces (replaces : Replaces name crowd) (goes : Goes crowd b crowd') : Replaces name crowd' := by
  refine ⟨goes_sane replaces.sane goes, fun i m there => ?_⟩
  obtain ⟨m', earlier, same⟩ := goes_order goes there
  exact same ▸ replaces.order i m' earlier

/-- The agent is gone, and the call in this place has not paused it. -/
structure Late (name : String) (j : Nat) (crowd : Crowd) : Prop where
  replaces : Replaces name crowd
  gone : crowd.agents.get? name = none
  untouched : ∀ m, crowd.Has j m → ∀ s, m.swap = some (.ok s) → ¬ s.Touched

theorem goes_late (late : Late name j crowd) (goes : Goes crowd b crowd') : Late name j crowd' := by
  refine ⟨goes_replaces late.replaces goes, ?_, ?_⟩
  · cases goes with
    | stayed => exact late.gone
    | placed => exact late.gone
    | moved there begun moves =>
      have runs := late.replaces.sane.runs _ _ there _ begun
      have own := runs.oldName.trans (late.replaces.order _ _ there)
      have edits := Swap.moves_edits late.replaces.sane.named runs.grounded moves
      have state := edits.oldState runs.grounded
      rw [own] at state
      rcases state with ⟨_, gone⟩ | same
      · exact gone
      · have none : crowd.coordinator.registry.agents.get? name = none := late.gone
        rwa [none, Option.map_none, Option.map_eq_none_iff] at same
  · intro m found s begun
    cases goes with
    | stayed => exact late.untouched m found s begun
    | placed there =>
      rw [has_put there] at found
      split at found
      · subst found
        have fits := (Call.start_fits (Option.some.inj begun)).1
        have there := fits.old
        rw [late.replaces.order _ _ ‹_›] at there
        exact nomatch there.symm.trans late.gone
      · exact late.untouched m found s begun
    | moved there earlier moves =>
      rw [has_put there] at found
      split at found
      · rename_i same
        subst same found
        cases begun
        have runs := late.replaces.sane.runs _ _ there _ earlier
        have own := runs.oldName.trans (late.replaces.order _ _ there)
        exact Swap.moves_untouched runs.grounded.sensible (own ▸ late.gone) (late.untouched _ there _ earlier) moves
      · exact late.untouched m found s begun

/-- A call that completes had paused the agent by the time that the agent was gone. -/
theorem completes_only_if_paused_in_time (made : c.registry.Made) (same : ∀ o ∈ orders, o.oldName = name)
    (gone : ((gather orders c).play before).agents.get? name = none)
    (ended : ((gather orders c).play (before ++ after)).outcome? j = some (.completed record)) :
    ∃ m s, ((gather orders c).play before).Has j m ∧ m.swap = some (.ok s) ∧ s.Touched := by
  apply Classical.byContradiction
  intro never
  have replaces := play_invariant (fun _ _ _ => goes_replaces) (gather_replaces made same) before
  have late : Late name j ((gather orders c).play before) :=
    ⟨replaces, gone, fun m there s begun touched => never ⟨m, s, there, begun, touched⟩⟩
  have still := play_invariant (fun _ _ _ => goes_late) late after
  rw [play_append] at ended
  obtain ⟨m, s, there, begun, atEnd, sound, _⟩ := completed_cases ended
  have phase : s.phase = .finished := by simpa [Swap.isOver] using atEnd
  exact still.untouched m there s begun (.inl ((still.replaces.sane.runs _ _ there _ begun).paused (.inr phase) sound))

theorem completes_only_if_paused_in_time_by_two :
    ∃ m s, (Sample.ran Sample.rivals (Sample.asked ++ Sample.won 0)).Has 1 m ∧
      m.swap = some (.ok s) ∧ s.Touched := by
  obtain ⟨record, ended⟩ : ∃ record,
      ((gather Sample.rivals Sample.office).play ((Sample.asked ++ Sample.won 0) ++ Sample.won 1)).outcome? 1 =
        some (.completed record) := ⟨_, rfl⟩
  have same : ∀ o ∈ Sample.rivals, o.oldName = "elder" := by decide
  exact completes_only_if_paused_in_time Sample.office_made same rfl ended

/-- Both calls to replace an agent by different ones complete if each paused it before it was gone. -/
theorem both_rivals_complete :
    (∃ record, Sample.bothWon.outcome? 0 = some (.completed record)) ∧
    (∃ record, Sample.bothWon.outcome? 1 = some (.completed record)) ∧
    (∃ a, Sample.bothWon.agents.get? "heir" = some a ∧ a.state.burden = Sample.worker.state.burden) ∧
    (∃ a, Sample.bothWon.agents.get? "rival" = some a ∧ a.state.burden = Sample.worker.state.burden) :=
  ⟨⟨_, rfl⟩, ⟨_, rfl⟩, ⟨_, rfl, rfl⟩, ⟨_, rfl, rfl⟩⟩

/-- The agent or one of its successors carries the burden. -/
structure Carries (name : String) (burden : Burden)
    (crowd : Crowd) : Prop where
  replaces : Replaces name crowd
  apart : crowd.Apart fun o p => o.newName ≠ p.newName
  old : ∀ a, crowd.agents.get? name = some a → a.state.burden = burden
  laden : ∀ i m, crowd.Has i m → ∀ s, m.swap = some (.ok s) → s.Laden burden crowd.agents
  held : (∃ a, crowd.agents.get? name = some a) ∨ ∃ i m s, crowd.Has i m ∧ m.swap = some (.ok s) ∧ s.HasRemoved

/-- What a turn of one swap does is not about the new agent of another one. -/
theorem edits_spare {s s' other : Swap} {r r' : Registry} {o p : Order} (edits : Swap.Edits s s' r r')
    (runs : o.Runs s) (others : p.Runs other) (one : o.oldName = p.oldName) (apart : o.newName ≠ p.newName) :
    r'.agents.get? other.session.newName = r.agents.get? other.session.newName := by
  apply edits.elsewhere runs.grounded
  · rw [runs.oldName, one, ← others.oldName]
    exact others.grounded.sensible.differ
  · rw [others.newName, runs.newName]
    exact Ne.symm apart

theorem placed_carries (carries : Carries name burden crowd) (there : crowd.Has b.member m) (fresh : m.swap = none)
    (replaces : Replaces name (crowd.put b.member (m.call (m.order.start crowd.coordinator).swap) crowd.coordinator)) :
    Carries name burden
      (crowd.put b.member (m.call (m.order.start crowd.coordinator).swap) crowd.coordinator) := by
  have goes : Goes crowd b _ := .placed there fresh
  refine ⟨replaces, goes_apart carries.apart goes, carries.old, ?_, ?_⟩
  · intro i x found s begun
    rw [has_put there] at found
    split at found
    · subst found
      exact Swap.begun_laden (Option.some.inj begun) (carries.replaces.order _ _ there ▸ carries.old)
    · exact carries.laden i x found s begun
  · rcases carries.held with registered | ⟨i, x, s, found, begun, removed⟩
    · exact .inl registered
    · have other : i ≠ b.member := by
        rintro rfl
        rw [has_unique found there, fresh] at begun
        cases begun
      exact .inr ⟨i, x, s, has_put_other there found other, begun, removed⟩

theorem moved_carries {s' : Swap} {c' : Coordinator} (carries : Carries name burden crowd)
    (there : crowd.Has b.member m) (begun : m.swap = some (.ok s))
    (moves : Swap.Moves s crowd.coordinator b.around b.heard s' c')
    (replaces : Replaces name (crowd.put b.member (m.call (.ok s')) c')) :
    Carries name burden (crowd.put b.member (m.call (.ok s')) c') := by
  have goes : Goes crowd b _ := .moved there begun moves
  have runs := carries.replaces.sane.runs _ _ there _ begun
  have one := carries.replaces.order _ _ there
  have own := runs.oldName.trans one
  have edits := Swap.moves_edits carries.replaces.sane.named runs.grounded moves
  have old : ∀ a, crowd.coordinator.registry.agents.get? s.session.oldName = some a → a.state.burden = burden :=
    own ▸ carries.old
  refine ⟨replaces, goes_apart carries.apart goes, ?_, ?_, ?_⟩
  · intro a found
    rw [put_agents, ← own] at found
    exact edits.old_burden runs.grounded old found
  · intro i x found t started
    rw [has_put there] at found
    split at found
    · subst found
      cases started
      have laden := carries.laden _ _ there _ begun
      exact Swap.moves_laden carries.replaces.sane.named runs.grounded runs.course laden old moves
    · rename_i differ
      have laden := carries.laden i x found t started
      refine ⟨laden.found, laden.captured, fun handed => ?_⟩
      have others := carries.replaces.sane.runs i x found t started
      rw [put_agents, edits_spare edits runs others (one.trans (carries.replaces.order i x found).symm)
        (carries.apart _ _ _ _ (Ne.symm differ) there found)]
      exact laden.handed handed
  · rcases carries.held with ⟨a, registered⟩ | ⟨i, x, t, found, started, removed⟩
    · rw [← own] at registered
      rcases edits.old_stays runs.grounded registered with phase | still
      · exact .inr ⟨b.member, _, s', has_put_self there, rfl, .inl phase⟩
      · exact .inl (own ▸ still)
    · by_cases same : i = b.member
      · subst same
        rw [has_unique found there, begun] at started
        cases started
        exact .inr ⟨b.member, _, s', has_put_self there, rfl, Swap.moves_removed runs.course removed moves⟩
      · exact .inr ⟨i, x, t, has_put_other there found same, started, removed⟩

theorem goes_carries (carries : Carries name burden crowd) (goes : Goes crowd b crowd') :
    Carries name burden crowd' := by
  have replaces := goes_replaces carries.replaces goes
  cases goes with
  | stayed => exact carries
  | placed there fresh => exact placed_carries carries there fresh replaces
  | moved there begun moves => exact moved_carries carries there begun moves replaces

/-- Calls to replace one agent by agents of different names lose nothing of what it works with. -/
theorem distinct_successors_lose_nothing (made : c.registry.Made) (same : ∀ o ∈ orders, o.oldName = name)
    (apart : orders.Pairwise fun o p => o.newName ≠ p.newName) (there : c.registry.agents.get? name = some old)
    (beats : List Beat) :
    ∃ holder a, ((gather orders c).play beats).agents.get? holder = some a ∧ a.state.burden = old.state.burden := by
  have start : (gather orders c).Carries name old.state.burden := by
    refine ⟨gather_replaces made same, gather_apart (fun _ _ => Ne.symm) apart c, ?_, ?_, .inl ⟨old, there⟩⟩
    · intro a found
      rw [Option.some.inj (there.symm.trans found)]
    · intro i m found s begun
      rw [(gather_fresh found).1] at begun
      cases begun
  have carries := play_invariant (fun _ _ _ => goes_carries) start beats
  rcases carries.held with ⟨a, registered⟩ | ⟨i, m, s, found, begun, removed⟩
  · exact ⟨name, a, registered, carries.old a registered⟩
  · obtain ⟨a, registered, carried⟩ := (carries.laden i m found s begun).handed (.inr removed)
    exact ⟨_, a, registered, carried⟩

theorem distinct_successors_lose_nothing_of_two :
    ∃ holder a, (Sample.oneLost Sample.rivals).agents.get? holder = some a ∧
      a.state.burden = Sample.worker.state.burden := by
  have same : ∀ o ∈ Sample.rivals, o.oldName = "elder" := by decide
  exact distinct_successors_lose_nothing Sample.office_made same (by decide) rfl _

/-- With one name for both successors the call that is rolled back last puts a bare registration in the place of the
successor that had taken over. -/
theorem shared_successor_loses_everything :
    (∃ record, (Sample.oneLost Sample.twins).outcome? 0 = some (.completed record)) ∧
    (∃ e record, (Sample.oneLost Sample.twins).outcome? 1 = some (.failed e record)) ∧
    ∀ holder a, (Sample.oneLost Sample.twins).agents.get? holder = some a →
      a.state.memory = [] ∧ a.state.pendingTasks = [] := by
  refine ⟨⟨_, rfl⟩, ⟨_, _, rfl⟩, ?_⟩
  obtain ⟨bare, only, empty⟩ : ∃ bare, (Sample.oneLost Sample.twins).agents = [("heir", bare)] ∧
      bare.state.memory = [] ∧ bare.state.pendingTasks = [] := ⟨_, rfl, rfl, rfl⟩
  intro holder a found
  rw [only] at found
  simp only [Table.get?] at found
  split at found
  · cases found
    exact empty
  · cases found

end Crowd
end Handover
