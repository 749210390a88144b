import Handover.Proofs.Crowd.OneAgent
import Handover.Proofs.Swap.Takeover

/-!
# Agents in succession

Calls that complete, each of which replaces the successor of the one before, hand one burden on from the first agent
to the last. What the configurations of their swaps give is laid over what the first agent had, the latest on top:
`Lineage`. One call gives a lineage by `Takeover`, and a call before a lineage gives a longer one.
-/

namespace Handover

/-- A call to replace an agent, with the turns of its run. -/
structure Hop where
  order : Order
  turns : List Turn

def Hop.call (hop : Hop) (c : Coordinator) : Call := (hop.order.start c).play hop.turns

/-- The hops lead from the agent of one name to the agent of another, by calls that complete. Others leave alone the
entry of whoever is in service, and those of the two names of a call while it goes on. -/
inductive Succession : Coordinator → String → List Hop → Coordinator → String → Prop where
  | arrived : Succession c name [] c name
  | idle (same : d.registry.agents.get? name = c.registry.agents.get? name)
      (onward : Succession d name hops e last) : Succession c name hops e last
  | hop (made : c.registry.Made) (own : hop.order.oldName = name)
      (spared : (hop.order.start c).Always (Call.Spares [hop.order.oldName, hop.order.newName]) hop.turns)
      (completed : (hop.call c).outcome? = some (.completed record))
      (onward : Succession (hop.call c).coordinator hop.order.newName hops e last) :
      Succession c name (hop :: hops) e last

/-- What the latest of these orders gives whose configuration gives something. -/
def latest? {α : Type} (read : Table Json → Option α) (orders : List Order) : Option α :=
  orders.reverse.findSome? fun o => read o.changes

/-- What the swap for an order adds to the history. -/
def Order.entries (o : Order) (times : Instant × Instant) : List HistoryEntry :=
  [Swap.captureEntry o.session o.newName times.1, Swap.transferEntry o.session o.oldName times.2]

/-- What an agent is after swaps for these orders, the first of which replaced `first`. -/
structure Lineage (orders : List Order) (first last : Registration) : Prop where
  memory : last.state.memory = first.state.memory
  pendingTasks : last.state.pendingTasks = first.state.pendingTasks
  activeTask : last.state.activeTask = first.state.activeTask
  metrics : last.state.metrics = first.state.metrics
  configuration : ∀ key, last.state.configuration.get? key =
    if key ∈ ["type", "version", "capabilities"] then first.state.configuration.get? key
    else (latest? (Table.get? key) orders).or (first.state.configuration.get? key)
  agentType : last.agentType =
    (latest? (fun changes => (changes.get? "type").bind Json.text?) orders).getD first.agentType
  version : last.version =
    (latest? (fun changes => (changes.get? "version").bind Json.text?) orders).getD first.version
  capabilities : last.capabilities =
    ((latest? (fun changes => (changes.get? "capabilities").bind Json.items?) orders).map fun items =>
      items.filterMap Json.text?).getD first.capabilities
  history : ∃ times : List (Instant × Instant), times.length = orders.length ∧
    last.state.history = first.state.history ++ (List.zipWith Order.entries orders times).flatten

variable {o : Order} {orders : List Order} {a b d : Registration}

theorem latest?_cons {α : Type} (read : Table Json → Option α) (o : Order) (orders : List Order) :
    latest? read (o :: orders) = (latest? read orders).or (read o.changes) := by
  simp only [latest?, List.reverse_cons, List.findSome?_append, List.findSome?_singleton]

namespace Swap.Takeover
variable {changes : Table Json} {session oldName newName : String} {old heir : Registration}

theorem agentType_getD (takeover : Takeover changes session oldName newName old heir) :
    heir.agentType = ((changes.get? "type").bind Json.text?).getD old.agentType :=
  takeover.agentType.trans (textOr_eq old.agentType changes "type").symm

theorem version_getD (takeover : Takeover changes session oldName newName old heir) :
    heir.version = ((changes.get? "version").bind Json.text?).getD old.version :=
  takeover.version.trans (textOr_eq old.version changes "version").symm

theorem capabilities_getD (takeover : Takeover changes session oldName newName old heir) :
    heir.capabilities = (((changes.get? "capabilities").bind Json.items?).map fun items =>
      items.filterMap Json.text?).getD old.capabilities := by
  rw [takeover.capabilities]
  cases changes.get? "capabilities" with
  | none => rfl
  | some value => cases value <;> rfl

end Swap.Takeover

namespace Lineage

theorem refl (a : Registration) : Lineage [] a a where
  memory := rfl
  pendingTasks := rfl
  activeTask := rfl
  metrics := rfl
  configuration key := by simp [latest?]
  agentType := rfl
  version := rfl
  capabilities := rfl
  history := ⟨[], rfl, (List.append_nil _).symm⟩

/-- A swap before a lineage makes a longer one. -/
theorem cons (takeover : Swap.Takeover o.changes o.session o.oldName o.newName a b)
    (onward : Lineage orders b d) : Lineage (o :: orders) a d where
  memory := onward.memory.trans takeover.memory
  pendingTasks := onward.pendingTasks.trans takeover.pendingTasks
  activeTask := onward.activeTask.trans takeover.activeTask
  metrics := onward.metrics.trans takeover.metrics
  configuration key := by
    rw [onward.configuration, takeover.configuration, latest?_cons]
    by_cases reserved : key ∈ ["type", "version", "capabilities"]
    · simp only [if_pos reserved]
    · simp only [if_neg reserved, Option.or_assoc]
  agentType := by rw [onward.agentType, takeover.agentType_getD, latest?_cons, Option.getD_or]
  version := by rw [onward.version, takeover.version_getD, latest?_cons, Option.getD_or]
  capabilities := by
    rw [onward.capabilities, takeover.capabilities_getD, latest?_cons, Option.map_or, Option.getD_or]
  history := by
    obtain ⟨captured, transferred, first⟩ := takeover.history
    obtain ⟨times, enough, rest⟩ := onward.history
    refine ⟨(captured, transferred) :: times, congrArg Nat.succ enough, ?_⟩
    rw [rest, first, List.append_assoc]
    rfl

end Lineage

namespace Call
variable {c d : Coordinator} {name last : String} {hops : List Hop} {turns : List Turn} {call : Call}

theorem completed_takeover {record : Session} (made : c.registry.Made)
    (spared : (o.start c).Always (Spares [o.oldName, o.newName]) turns)
    (ended : ((o.start c).play turns).outcome? = some (.completed record)) :
    ∃ old heir, c.registry.agents.get? o.oldName = some old ∧
      ((o.start c).play turns).agents.get? o.newName = some heir ∧
      Swap.Takeover o.changes o.session o.oldName o.newName old heir := by
  obtain ⟨s, ends, atEnd, sound, _⟩ := completed_cases ended
  obtain ⟨order, fits⟩ := play_kept made spared s ends
  obtain ⟨enrolled, captured, transferred, there⟩ := ((Swap.over_entries order.stands atEnd).2 sound).new
  have takeover := Swap.heir_takeover s (fits.changes ▸ o.distinct) enrolled captured transferred
  rw [fits.changes, fits.id, fits.oldName, fits.newName] at takeover
  rw [fits.newName] at there
  exact ⟨s.old, _, fits.old, there, takeover⟩

/-- The last agent of a succession has what the first one worked with, and what the swaps on the way gave. -/
theorem succession_keeps_state (succession : Succession c name hops d last)
    (found : c.registry.agents.get? name = some a) :
    ∃ b, d.registry.agents.get? last = some b ∧ Lineage (hops.map Hop.order) a b := by
  induction succession generalizing a with
  | arrived => exact ⟨a, found, .refl a⟩
  | idle same _ ih => exact ih (same.trans found)
  | hop made own spared completed _ ih =>
    obtain ⟨old, heir, was, there, takeover⟩ := completed_takeover made spared completed
    rw [own, found] at was
    cases was
    obtain ⟨b, entry, lineage⟩ := ih there
    exact ⟨b, entry, .cons takeover lineage⟩

theorem play_made (made : call.coordinator.registry.Made) (own : ∀ t ∈ turns, t.isOwn = true) :
    (call.play turns).coordinator.registry.Made := by
  induction turns generalizing call with
  | nil => exact made
  | cons t rest ih =>
    refine ih ?_ fun t there => own t (.tail _ there)
    cases t with
    | others => exact nomatch own _ (.head _)
    | own around heard =>
      cases begun : call.swap with
      | error e => simpa [turn, begun] using made
      | ok s =>
        rw [turn_own begun around heard]
        exact Swap.moves_made made Swap.advance_moves

end Call

namespace Sample

/-- Turns of a call that is left alone and gets an answer to its ping. -/
def smooth : List Turn := List.replicate 26 (.own { time := ⟨2, 0⟩ } (.ok (some alive)))

def first : Hop where
  order :=
    { order with
      changes := [("mode", .str "fast"), ("type", .str "trader"), ("version", .null)]
      distinct := by decide }
  turns := smooth

def second : Hop where
  order :=
    { context := { token := 0 }, oldName := "heir", newName := "scion", changes := [("mode", .str "slow")]
      session := "swap-2", placed := ⟨3, 0⟩ }
  turns := smooth

def after : Coordinator := (second.call (first.call office).coordinator).coordinator

theorem smooth_own {t : Turn} (there : t ∈ smooth) : t.isOwn = true := by
  rw [List.eq_of_mem_replicate there]
  rfl

theorem succession : Succession office "elder" [first, second] after "scion" := by
  have spared : ∀ names call, Call.Always (Call.Spares names) call smooth :=
    fun names call => Call.always_spares names (fun _ there => smooth_own there) call
  have between : (first.call office).coordinator.registry.Made :=
    Call.play_made office_made fun _ there => smooth_own there
  obtain ⟨record, completed⟩ : ∃ record, (first.call office).outcome? = some (.completed record) := ⟨_, rfl⟩
  obtain ⟨later, completed'⟩ : ∃ record,
      (second.call (first.call office).coordinator).outcome? = some (.completed record) := ⟨_, rfl⟩
  have onward : Succession (first.call office).coordinator "heir" [second] after "scion" :=
    .hop between rfl (spared _ _) completed' .arrived
  exact .hop office_made rfl (spared _ _) completed onward

end Sample

namespace Call

theorem succession_keeps_state_of_two :
    ∃ b, Sample.after.registry.agents.get? "scion" = some b ∧
      Lineage [Sample.first.order, Sample.second.order] Sample.worker b ∧
      b.agentType = "trader" ∧ b.state.configuration.get? "mode" = some (.str "slow") := by
  have found : Sample.office.registry.agents.get? "elder" = some Sample.worker := rfl
  obtain ⟨b, entry, lineage⟩ := succession_keeps_state Sample.succession found
  have agentType : b.agentType = "trader" := lineage.agentType
  have mode : b.state.configuration.get? "mode" = some (.str "slow") := lineage.configuration "mode"
  exact ⟨b, entry, lineage, agentType, mode⟩

end Call
end Handover
