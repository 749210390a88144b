import Handover.Proofs.Swap.Entries

/-!
# What a successor takes over

The successor of an agent after a swap, field by field: what the configuration of the swap gives goes before
what the old agent had, and the state is the old agent's with two entries more in its history.
-/

namespace Handover

namespace Swap
variable {configuration changes : Table Json} {old heir : Registration} {key : String}

theorem overlay_cons (configuration rest : Table Json) (key : String) (value : Json) :
    overlay configuration ((key, value) :: rest) =
      overlay (if key ∈ reservedKeys then configuration else configuration.insert key value) rest := rfl

theorem get?_overlay (distinct : changes.names.Nodup) (configuration : Table Json) (key : String) :
    (overlay configuration changes).get? key =
      if key ∈ reservedKeys then configuration.get? key else (changes.get? key).or (configuration.get? key) := by
  induction changes generalizing configuration with
  | nil => simp [overlay, Table.get?]
  | cons e rest ih =>
    obtain ⟨k, v⟩ := e
    obtain ⟨absent, distinct⟩ := List.nodup_cons.mp distinct
    rw [overlay_cons, ih distinct]
    by_cases same : k = key
    · subst same
      have none : Table.get? k rest = none := Table.get?_none_of_not_mem absent
      by_cases reserved : k ∈ reservedKeys
      · simp [reserved]
      · simp [reserved, none, Table.get?, Table.get?_insert_self]
    · have kept : ∀ value, (configuration.insert k value).get? key = configuration.get? key :=
        fun value => Table.get?_insert_of_ne (Ne.symm same) value configuration
      by_cases reserved : k ∈ reservedKeys <;> simp [reserved, kept, Table.get?, same]

theorem textOr_eq (fallback : String) (changes : Table Json) (key : String) :
    textOr fallback changes key = match changes.get? key with
      | some (.str t) => t
      | _ => fallback := by
  unfold textOr
  cases changes.get? key with
  | none => rfl
  | some value => cases value <;> rfl

/-- What an agent is after the swap that put it in the place of `old`. -/
structure Takeover (changes : Table Json) (session oldName newName : String) (old heir : Registration) : Prop where
  name : heir.name = newName
  agentType : heir.agentType = match changes.get? "type" with
    | some (.str t) => t
    | _ => old.agentType
  version : heir.version = match changes.get? "version" with
    | some (.str t) => t
    | _ => old.version
  capabilities : heir.capabilities = match changes.get? "capabilities" with
    | some (.arr items) => items.filterMap Json.text?
    | _ => old.capabilities
  active : heir.status = .active
  memory : heir.state.memory = old.state.memory
  pendingTasks : heir.state.pendingTasks = old.state.pendingTasks
  activeTask : heir.state.activeTask = old.state.activeTask
  metrics : heir.state.metrics = old.state.metrics
  configuration : ∀ key, heir.state.configuration.get? key =
    if key ∈ ["type", "version", "capabilities"] then old.state.configuration.get? key
    else (changes.get? key).or (old.state.configuration.get? key)
  history : ∃ captured transferred, heir.state.history = old.state.history ++
    [captureEntry session newName captured, transferEntry session oldName transferred]

theorem heir_takeover (s : Swap) (distinct : s.changes.names.Nodup) (enrolled captured transferred : Instant) :
    Takeover s.changes s.session.id s.session.oldName s.session.newName s.old
      (s.heir enrolled captured transferred) where
  name := rfl
  agentType := textOr_eq _ _ _
  version := textOr_eq _ _ _
  capabilities := by
    simp only [heir, successor]
    cases s.changes.get? "capabilities" with
    | none => rfl
    | some value => cases value <;> rfl
  active := rfl
  memory := rfl
  pendingTasks := rfl
  activeTask := rfl
  metrics := rfl
  configuration := get?_overlay distinct s.old.state.configuration
  history := ⟨captured, transferred, by simp [heir, handed, capturedState, AgentState.recordHistory]⟩

end Swap
end Handover
