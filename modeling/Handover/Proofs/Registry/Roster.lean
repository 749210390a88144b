import Handover.Proofs.Crowd
import Handover.Proofs.Recovery.Steps
import Handover.Proofs.Registry.Access

/-!
# A registry that everybody uses

Callers, calls that replace agents, and recoveries from whatever a board shows use one registry, and take turns in any
way. Whatever they did, every agent stands under its own name, the list is that of the agents that can be looked up, and
a turn changes nothing under names that are not its own: `roster_coherent`.
-/

namespace Handover

/-- The calls that share a registry, and the recoveries that fill it. -/
structure Roster where
  crowd : Crowd
  recoveries : List Recovery := []

inductive Roster.Event where
  | access (x : Registry.Access)
  /-- One of the calls goes on. -/
  | beat (b : Beat)
  /-- One more recovery is begun. -/
  | recover
  /-- One of the recoveries goes on, and finds the store like this. -/
  | recovery (i : Nat) (s : Store)

namespace Roster

/-- Calls for these orders, none of them placed, and an empty registry. -/
def opened (orders : List Order) (config : Config) (board : Option Blackboard) : Roster where
  crowd := Crowd.gather orders (Coordinator.ofConfig config board)

def registry (t : Roster) : Registry := t.crowd.coordinator.registry

def withRegistry (t : Roster) (registry : Registry) : Roster :=
  { t with crowd := { t.crowd with coordinator := { t.crowd.coordinator with registry } } }

def act (t : Roster) : Event → Roster
  | .access x => t.withRegistry (t.registry.access x)
  | .beat b => { t with crowd := t.crowd.beat b }
  | .recover => { t with recoveries := t.recoveries ++ [Recovery.start t.crowd.coordinator] }
  | .recovery i s =>
    match t.recoveries[i]? with
    | none => t
    | some x =>
      let (x, registry) := x.step s t.registry
      { t with recoveries := t.recoveries.set i x }.withRegistry registry

def run (t : Roster) (events : List Event) : Roster := events.foldl act t

/-- The names that an event concerns: one for an access, the two of its order for a call, and that of the agent that is
entered for a recovery. -/
def about (t : Roster) : Event → List String
  | .access x => [x.about]
  | .beat b =>
    match t.crowd.members[b.member]? with
    | some m => [m.order.oldName, m.order.newName]
    | none => []
  | .recover => []
  | .recovery i _ =>
    match t.recoveries[i]? with
    | some (.going _ (.entering a _ _)) => [a.name]
    | _ => []

/-- The registry was made by its operations, and the swaps are those of the orders. -/
structure Sane (t : Roster) : Prop where
  made : t.registry.Made
  crowd : t.crowd.Sane

variable {t : Roster} {r : Registry} {b : Beat} {name : String} {event : Event} {events : List Event}

theorem Sane.withRegistry (sane : t.Sane) (made : r.Made) : (t.withRegistry r).Sane :=
  ⟨made, Registry.made_named made, sane.crowd.runs⟩

theorem opened_sane (orders : List Order) (config : Config) (board : Option Blackboard) :
    (opened orders config board).Sane :=
  ⟨.empty, Crowd.gather_sane (Registry.made_named .empty) orders⟩

theorem act_sane (sane : t.Sane) (event : Event) : (t.act event).Sane := by
  cases event with
  | access x => exact sane.withRegistry (Registry.access_made sane.made x)
  | beat b => exact ⟨Crowd.goes_made sane.made Crowd.beat_goes, Crowd.goes_sane sane.crowd Crowd.beat_goes⟩
  | recover => exact ⟨sane.made, sane.crowd⟩
  | recovery i s =>
    rw [act]
    split
    · exact sane
    · rename_i x _
      split
      rename_i x' r' stepped
      have kept : Sane { t with recoveries := t.recoveries.set i x' } := ⟨sane.made, sane.crowd⟩
      refine kept.withRegistry ?_
      rcases Recovery.step_registry stepped with rfl | ⟨_, a, _, _, _, entered⟩
      · exact sane.made
      · exact .restore sane.made entered

theorem run_sane (sane : t.Sane) (events : List Event) : (t.run events).Sane := by
  induction events generalizing t with
  | nil => exact sane
  | cons event rest ih => exact ih (act_sane sane event)

/-- A turn of a call changes nothing but what stands under the names of its order. -/
theorem goes_elsewhere {crowd : Crowd} (sane : t.Sane) (elsewhere : name ∉ t.about (.beat b))
    (goes : Crowd.Goes t.crowd b crowd) : crowd.agents.get? name = t.crowd.agents.get? name := by
  cases goes with
  | stayed | placed => rfl
  | @moved m s s' c' there begun moves =>
    have runs := sane.crowd.runs _ _ there s begun
    have found : t.crowd.members[b.member]? = some m := there
    simp only [about, found, List.mem_cons, List.not_mem_nil, or_false, not_or] at elsewhere
    have edits := Swap.moves_edits sane.crowd.named runs.grounded moves
    exact edits.elsewhere runs.grounded (runs.oldName ▸ elsewhere.1) (runs.newName ▸ elsewhere.2)

theorem act_elsewhere (sane : t.Sane) (elsewhere : name ∉ t.about event) :
    (t.act event).registry.agents.get? name = t.registry.agents.get? name := by
  cases event with
  | access x => exact Registry.access_elsewhere (List.ne_of_not_mem_cons elsewhere)
  | beat b => exact goes_elsewhere sane elsewhere Crowd.beat_goes
  | recover => rfl
  | recovery i s =>
    rw [act]
    split
    · rfl
    · rename_i x found
      split
      rename_i x' r' stepped
      rcases Recovery.step_registry stepped with rfl | ⟨board, a, rest, count, rfl, entered⟩
      · rfl
      · have other : name ≠ a.name := by
          simp only [about, found] at elsewhere
          exact List.ne_of_not_mem_cons elsewhere
        have notes := Registry.restore_notes entered
        show r'.agents.get? name = t.registry.agents.get? name
        rw [notes.agents]
        exact Table.get?_insert_of_ne other a t.registry.agents

/-- However accesses, calls and recoveries take turns, the registry stays coherent, and every further event leaves alone
what stands under the names that it does not concern. -/
theorem roster_coherent (orders : List Order) (config : Config) (board : Option Blackboard) (events : List Event) :
    ((opened orders config board).run events).registry.Coherent ∧
      ∀ event name, name ∉ ((opened orders config board).run events).about event →
        (((opened orders config board).run events).act event).registry.get name =
          ((opened orders config board).run events).registry.get name := by
  have sane := run_sane (opened_sane orders config board) events
  refine ⟨Registry.made_coherent sane.made, fun event name elsewhere => ?_⟩
  exact Registry.get_eq (act_elsewhere sane elsewhere)

end Roster
end Handover
