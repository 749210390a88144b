import Handover.Registry

/-!
# What the registry's operations do to its entries

Each operation is described by what it leaves under a name. A registry that was made by its operations has
every agent under the agent's own name.
-/

namespace Handover
namespace Registry

/-- A registry as its operations make it. -/
inductive Made : Registry → Prop where
  | empty : Made {}
  | register (made : Made r) (done : r.register a now = .ok (stored, s)) : Made s
  | restore (made : Made r) (done : r.restore a = .ok s) : Made s
  | unregister (made : Made r) (gone : String) : Made (r.unregister gone).2
  | heartbeat (made : Made r) (done : r.heartbeat name now = .ok (a, s)) : Made s
  | updateState (made : Made r) (done : r.updateState name state = .ok (a, s)) : Made s
  | setStatus (made : Made r) (done : r.setStatus name status = .ok (a, s)) : Made s
  | note (made : Made r) (w : BoardWrite) : Made (r.note w)
  /-- The writes were handed to a writer. -/
  | drained (made : Made r) : Made { r with writes := [] }

/-- Every agent is found under its own name, which is not empty. -/
def Named (agents : Table Registration) : Prop :=
  ∀ name a, agents.get? name = some a → a.name = name ∧ name ≠ ""

variable {r s : Registry} {name : String} {a b : Registration} {f : Registration → Registration}

@[simp]
theorem note_agents (r : Registry) (w : BoardWrite) : (r.note w).agents = r.agents := rfl

@[simp]
theorem unregister_agents (r : Registry) (name : String) :
    (r.unregister name).2.agents = r.agents.erase name := rfl

theorem store_agents (r : Registry) (a : Registration) :
    (r.store a).agents = r.agents.insert a.name a := rfl

theorem register_eq (r : Registry) (a : Registration) (now : Instant) (named : a.name ≠ "") :
    r.register a now = .ok (({ a with registeredAt := now, lastHeartbeat := now }, r.agents.get? a.name),
      r.store { a with registeredAt := now, lastHeartbeat := now }) := by
  simp [register, named]

theorem restore_eq (r : Registry) (a : Registration) (named : a.name ≠ "") :
    r.restore a = .ok (r.store a) := by
  simp [restore, named]

theorem modify_found (r : Registry) (f : Registration → Registration) (found : r.agents.get? name = some a) :
    r.modify name f = .ok (f a, { r with agents := r.agents.insert name (f a) }.note (.putAgent (f a))) := by
  simp [modify, get, found, bind, Except.bind, pure, Except.pure]

theorem modify_missing (r : Registry) (f : Registration → Registration) (missing : r.agents.get? name = none) :
    r.modify name f = .error (.agentMissing name) := by
  simp [modify, get, missing, bind, Except.bind]

theorem modify_ok (done : r.modify name f = .ok (b, s)) :
    ∃ a, r.agents.get? name = some a ∧ b = f a ∧ s.agents = r.agents.insert name (f a) := by
  cases found : r.agents.get? name with
  | none => rw [modify_missing r f found] at done; cases done
  | some a =>
    rw [modify_found r f found] at done
    cases done
    exact ⟨a, rfl, rfl, rfl⟩

theorem named_insert {agents : Table Registration} (h : Named agents) (a : Registration) (named : a.name ≠ "") :
    Named (agents.insert a.name a) := by
  intro name b found
  rw [Table.get?_insert] at found
  split at found
  · rename_i same
    cases found
    exact ⟨same.symm, same ▸ named⟩
  · exact h name b found

theorem named_erase {agents : Table Registration} (h : Named agents) (gone : String) :
    Named (agents.erase gone) := by
  intro name b found
  rw [Table.get?_erase] at found
  split at found
  · cases found
  · exact h name b found

theorem named_modify (h : Named r.agents) (done : r.modify name f = .ok (b, s))
    (keeps : ∀ a, (f a).name = a.name) : Named s.agents := by
  obtain ⟨a, found, _, changed⟩ := modify_ok done
  obtain ⟨same, named⟩ := h name a found
  have own : (f a).name = name := (keeps a).trans same
  rw [changed, ← own]
  exact named_insert h (f a) (own ▸ named)

theorem made_named (made : Made r) : Named r.agents := by
  induction made with
  | empty => intro name a found; cases found
  | @register r a now stored s _ done ih =>
    by_cases named : a.name = ""
    · simp [register, named] at done
    · rw [register_eq r a now named] at done
      cases done
      exact named_insert ih _ named
  | @restore r a s _ done ih =>
    by_cases named : a.name = ""
    · simp [restore, named] at done
    · rw [restore_eq r a named] at done
      cases done
      exact named_insert ih a named
  | unregister _ name ih => exact named_erase ih name
  | heartbeat _ done ih => exact named_modify ih done fun _ => rfl
  | updateState _ done ih => exact named_modify ih done fun _ => rfl
  | setStatus _ done ih => exact named_modify ih done fun _ => rfl
  | note _ _ ih => exact ih
  | drained _ ih => exact ih

end Registry
end Handover
