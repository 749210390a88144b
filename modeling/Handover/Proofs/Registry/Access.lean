import Handover.Proofs.Registry
import Handover.Proofs.Table

/-!
# What callers do with a registry

Every access is done with at once, so that a registry goes from access to access. Each concerns one name and leaves the
others alone: `access_elsewhere`. A registry that was made by its operations lists its agents under distinct and
increasing names: `made_coherent`.
-/

namespace Handover
namespace Registry

/-- What a caller asks of a registry. -/
inductive Access where
  | register (a : Registration) (now : Instant)
  | restore (a : Registration)
  | unregister (name : String)
  | heartbeat (name : String) (now : Instant)
  | updateState (name : String) (state : AgentState)
  | setStatus (name : String) (status : AgentStatus)
  | capture (name : String) (entry : HistoryEntry)
  deriving Repr

/-- The name that an access concerns. -/
def Access.about : Access → String
  | register a _ | restore a => a.name
  | unregister name | heartbeat name _ | updateState name _ | setStatus name _ | capture name _ => name

/-- What is left of a registry when an operation was refused, or was not. -/
def keep (r : Registry) : Except Error Registry → Registry
  | .ok s => s
  | .error _ => r

def access (r : Registry) : Access → Registry
  | .register a now => r.keep ((r.register a now).map (·.2))
  | .restore a => r.keep (r.restore a)
  | .unregister name => (r.unregister name).2
  | .heartbeat name now => r.keep ((r.heartbeat name now).map (·.2))
  | .updateState name state => r.keep ((r.updateState name state).map (·.2))
  | .setStatus name status => r.keep ((r.setStatus name status).map (·.2))
  | .capture _ _ => r

/-- Every agent stands under its own name, and the list is that of the agents that can be looked up. -/
structure Coherent (r : Registry) : Prop where
  own : ∀ name a, (name, a) ∈ r.agents → a.name = name ∧ name ≠ ""
  increasing : (r.list.map Registration.name).Pairwise (· < ·)
  sized : r.list.length = r.size
  listed : ∀ name a, r.get name = .ok a ↔ a ∈ r.list ∧ a.name = name

variable {r s : Registry} {x : Access} {name other : String} {a b : Registration} {f : Registration → Registration}
  {result : Except Error Registry} {α : Type}

theorem get_ok_iff : r.get name = .ok a ↔ r.agents.get? name = some a := by
  unfold get
  split <;> rename_i found <;> simp [found]

theorem get_eq (same : s.agents.get? name = r.agents.get? name) : s.get name = r.get name := by
  rw [get, get, same]

theorem keep_made (made : Made r) (done : ∀ s, result = .ok s → Made s) : Made (r.keep result) := by
  cases result with
  | ok s => exact done s rfl
  | error _ => exact made

theorem keep_snd_made {first : Except Error (α × Registry)} (made : Made r)
    (done : ∀ y s, first = .ok (y, s) → Made s) : Made (r.keep (first.map (·.2))) := by
  cases first with
  | ok pair => exact done pair.1 pair.2 rfl
  | error _ => exact made

theorem access_made (made : Made r) (x : Access) : Made (r.access x) := by
  cases x with
  | register a now => exact keep_snd_made made fun _ _ done => .register made done
  | restore a => exact keep_made made fun _ done => .restore made done
  | unregister name => exact .unregister made name
  | heartbeat name now => exact keep_snd_made made fun _ _ done => .heartbeat made done
  | updateState name state => exact keep_snd_made made fun _ _ done => .updateState made done
  | setStatus name status => exact keep_snd_made made fun _ _ done => .setStatus made done
  | capture => exact made

theorem store_elsewhere (differ : other ≠ a.name) : (r.store a).agents.get? other = r.agents.get? other :=
  Table.get?_insert_of_ne differ a r.agents

theorem keep_modify_elsewhere (differ : other ≠ name) :
    (r.keep ((r.modify name f).map (·.2))).agents.get? other = r.agents.get? other := by
  cases found : r.agents.get? name with
  | none =>
    rw [modify_missing r f found]
    rfl
  | some a =>
    rw [modify_found r f found]
    exact Table.get?_insert_of_ne differ (f a) r.agents

theorem access_elsewhere (differ : name ≠ x.about) : (r.access x).agents.get? name = r.agents.get? name := by
  cases x with
  | register a now =>
    by_cases named : a.name = ""
    · simp [access, register, named, keep, Except.map]
    · rw [access, register_eq r a now named]
      exact store_elsewhere differ
  | restore a =>
    by_cases named : a.name = ""
    · simp [access, restore, named, keep]
    · rw [access, restore_eq r a named]
      exact store_elsewhere differ
  | unregister gone => exact Table.get?_erase_of_ne differ r.agents
  | heartbeat | updateState | setStatus => exact keep_modify_elsewhere differ
  | capture => rfl

theorem modify_ordered (ordered : r.agents.Ordered) (done : r.modify name f = .ok (b, s)) : s.agents.Ordered := by
  obtain ⟨a, _, _, changed⟩ := modify_ok done
  rw [changed]
  exact Table.ordered_insert ordered name (f a)

theorem made_ordered (made : Made r) : r.agents.Ordered := by
  induction made with
  | empty => exact Table.ordered_nil
  | @register r a now stored s _ done ih =>
    by_cases named : a.name = ""
    · simp [register, named] at done
    · rw [register_eq r a now named] at done
      cases done
      exact Table.ordered_insert ih a.name _
  | @restore r a s _ done ih =>
    by_cases named : a.name = ""
    · simp [restore, named] at done
    · rw [restore_eq r a named] at done
      cases done
      exact Table.ordered_insert ih a.name a
  | unregister _ name ih => exact Table.ordered_erase ih name
  | heartbeat _ done ih => exact modify_ordered ih done
  | updateState _ done ih => exact modify_ordered ih done
  | setStatus _ done ih => exact modify_ordered ih done
  | note _ _ ih => exact ih
  | drained _ ih => exact ih

/-! ## The list of the agents -/

theorem names_eq_of_named (named : Named r.agents) (ordered : r.agents.Ordered) :
    r.agents.values.map Registration.name = r.agents.names := by
  rw [Table.values, List.map_map]
  refine List.map_congr_left fun e there => ?_
  exact (named e.1 e.2 (Table.get?_of_mem ordered there)).1

theorem values_increasing (named : Named r.agents) (ordered : r.agents.Ordered) :
    (r.agents.values.map Registration.name).Pairwise (· < ·) := by
  rw [names_eq_of_named named ordered]
  exact ordered

/-- A table of agents under their own names is sorted already. -/
theorem list_eq (named : Named r.agents) (ordered : r.agents.Ordered) : r.list = r.agents.values := by
  have sorted := List.pairwise_map.mp (values_increasing named ordered)
  refine List.mergeSort_of_pairwise (sorted.imp fun less => ?_)
  exact decide_eq_true (Std.le_of_lt less)

theorem made_coherent (made : Made r) : r.Coherent := by
  have named := made_named made
  have ordered := made_ordered made
  have found : ∀ name a, (name, a) ∈ r.agents → a.name = name ∧ name ≠ "" :=
    fun name a there => named name a (Table.get?_of_mem ordered there)
  refine ⟨found, ?_, ?_, fun name a => ?_⟩
  · rw [list_eq named ordered]
    exact values_increasing named ordered
  · rw [list_eq named ordered, Table.values, List.length_map, size]
  · rw [get_ok_iff, list_eq named ordered, Table.values, List.mem_map]
    constructor
    · intro there
      exact ⟨⟨(name, a), Table.mem_of_get? there, rfl⟩, (named name a there).1⟩
    · rintro ⟨⟨⟨name', _⟩, there, rfl⟩, own⟩
      obtain rfl := (found name' _ there).1.symm.trans own
      exact Table.get?_of_mem ordered there

end Registry
end Handover
