import Handover.Agent.Wire
import Handover.Proofs.Json.Decoding

/-!
# Agents are read as they were written

A state or a registration whose numbers are in range is decoded from its encoding. Members may be missing, if they have
defaults, or come in another order, and others may be added: `AgentState.decode_edited`, `Registration.decode_edited`.
-/

namespace Handover

/-- A number of so many bits, beside that of the sign. -/
def Signed (bits : Nat) (i : Int) : Prop := -(Nat.pow 2 bits : Int) ≤ i ∧ i < (Nat.pow 2 bits : Int)

namespace Draft
variable {i : Int}

theorem reads_signed32 (within : Signed 31 i) : Reads (.int i) := by
  have wider : Nat.pow 2 31 ≤ Nat.pow 2 63 := by decide
  have wider' : Nat.pow 2 31 ≤ Nat.pow 2 64 := by decide
  obtain ⟨low, high⟩ := within
  exact reads_legible (.int (by omega) (by omega))

theorem reads_signed64 (within : Signed 63 i) : Reads (.int i) := by
  have wider : Nat.pow 2 63 ≤ Nat.pow 2 64 := by decide
  obtain ⟨low, high⟩ := within
  exact reads_legible (.int (by omega) (by omega))

end Draft

namespace Decode
variable {i : Int} {depth : Nat}

theorem int32_draft (within : Signed 31 i) : int32 depth (Json.int i).draft = .ok i := by
  obtain ⟨low, high⟩ := within
  exact int_draft _ low (by omega)

theorem int64_draft (within : Signed 63 i) : int64 depth (Json.int i).draft = .ok i := by
  obtain ⟨low, high⟩ := within
  exact int_draft _ low (by omega)

end Decode

theorem TaskStatus.decode_text (s : TaskStatus) (depth : Nat) : decode depth (Json.str s.text).draft = .ok s := by
  cases s <;> rfl

theorem AgentStatus.decode_text (s : AgentStatus) (depth : Nat) : decode depth (Json.str s.text).draft = .ok s := by
  cases s <;> rfl

namespace AgentTask
variable {t : AgentTask} {depth : Nat}

structure Legible (t : AgentTask) : Prop where
  priority : Signed 31 t.priority
  payload : t.payload.Legible
  createdAt : t.createdAt.Legible

theorem reads (legible : t.Legible) : Draft.Reads t.encode := by
  refine Draft.reads_obj ?_
  simp only [List.forall_mem_cons, List.not_mem_nil, IsEmpty.forall_iff, implies_true, and_true]
  exact ⟨Draft.reads_str _, Draft.reads_str _, Draft.reads_legible legible.payload, Draft.reads_signed32 legible.priority,
    Draft.reads_str _, Draft.reads_str _⟩

theorem decode_encode (legible : t.Legible) (shallow : depth + t.encode.nesting ≤ Decode.depthLimit) :
    decode depth t.encode.draft = .ok t := by
  have payload : t.payload.nesting < t.encode.nesting := Json.nesting_member (m := ("payload", t.payload)) (by simp)
  have takes : shape.Takes (depth + 1) shape.start []
      [("created_at", .ofInstant t.createdAt), ("id", .str t.id), ("payload", t.payload),
        ("priority", .int t.priority), ("status", .str t.status.text), ("task_type", .str t.taskType)] t
      ["task_type", "status", "priority", "payload", "id", "created_at"] :=
    .field rfl (by decide) (Decode.put_ok (Decode.instant_draft legible.createdAt) _) <|
    .field rfl (by decide) (Decode.put_ok rfl _) <|
    .field rfl (by decide) (Decode.put_ok (Decode.json_draft legible.payload (by omega)) _) <|
    .field rfl (by decide) (Decode.put_ok (Decode.int32_draft legible.priority) _) <|
    .field rfl (by decide) (Decode.put_ok (TaskStatus.decode_text _ _) _) <|
    .field rfl (by decide) (Decode.put_ok rfl _) .nil
  exact Shape.decode_takes takes (by omega) (by decide)

end AgentTask

namespace Metrics
variable {m : Metrics} {depth : Nat}

structure Legible (m : Metrics) : Prop where
  total : Signed 63 m.total
  successful : Signed 63 m.successful
  failed : Signed 63 m.failed
  realizedPnl : m.realizedPnl.Legible
  finite : m.avgLatencyMs.isFinite = true
  avgLatencyMs : m.avgLatencyMs.Legible
  lastUpdated : ∀ t ∈ m.lastUpdated, t.Legible

theorem fresh_legible : fresh.Legible where
  total := ⟨by decide, by decide⟩
  successful := ⟨by decide, by decide⟩
  failed := ⟨by decide, by decide⟩
  realizedPnl := ⟨{}, rfl, rfl⟩
  finite := rfl
  avgLatencyMs := rfl
  lastUpdated := nofun

theorem encode_finite (finite : m.avgLatencyMs.isFinite = true) : m.encode =
    .obj [("avg_latency_ms", .float m.avgLatencyMs), ("failed_tasks", .int m.failed),
      ("last_updated", .ofOption .ofInstant m.lastUpdated), ("realized_pnl", .str m.realizedPnl.text),
      ("successful_tasks", .int m.successful), ("total_tasks", .int m.total)] := by
  rw [encode, if_pos finite]

theorem reads (legible : m.Legible) : Draft.Reads m.encode := by
  rw [encode_finite legible.finite]
  refine Draft.reads_obj ?_
  simp only [List.forall_mem_cons, List.not_mem_nil, IsEmpty.forall_iff, implies_true, and_true]
  exact ⟨Draft.reads_legible (.float legible.avgLatencyMs), Draft.reads_signed64 legible.failed,
    Draft.reads_option fun t _ => Draft.reads_str _, Draft.reads_str _, Draft.reads_signed64 legible.successful,
    Draft.reads_signed64 legible.total⟩

theorem same_eq (m n : Metrics) : (m == n) =
    (m.total == n.total && (m.successful == n.successful && (m.failed == n.failed &&
      (m.realizedPnl == n.realizedPnl && (m.avgLatencyMs == n.avgLatencyMs && m.lastUpdated == n.lastUpdated))))) := rfl

theorem decode_encode (legible : m.Legible) (shallow : depth + m.encode.nesting ≤ Decode.depthLimit) :
    ∃ n, decode depth m.encode.draft = .ok n ∧ (n == m) = true := by
  rw [encode_finite legible.finite, Json.nesting] at shallow
  obtain ⟨amount, read, size⟩ := legible.realizedPnl
  have takes : shape.Takes (depth + 1) shape.start []
      [("avg_latency_ms", .float m.avgLatencyMs), ("failed_tasks", .int m.failed),
        ("last_updated", .ofOption .ofInstant m.lastUpdated), ("realized_pnl", .str m.realizedPnl.text),
        ("successful_tasks", .int m.successful), ("total_tasks", .int m.total)] { m with realizedPnl := amount }
      ["total_tasks", "successful_tasks", "realized_pnl", "last_updated", "failed_tasks", "avg_latency_ms"] :=
    .field rfl (by decide) (Decode.put_ok rfl _) <|
    .field rfl (by decide) (Decode.put_ok (Decode.int64_draft legible.failed) _) <|
    .field rfl (by decide) (Decode.put_ok (Decode.instantOption_draft legible.lastUpdated) _) <|
    .field rfl (by decide) (Decode.put_ok (Decode.amount_str read) _) <|
    .field rfl (by decide) (Decode.put_ok (Decode.int64_draft legible.successful) _) <|
    .field rfl (by decide) (Decode.put_ok (Decode.int64_draft legible.total) _) .nil
  refine ⟨{ m with realizedPnl := amount }, ?_, ?_⟩
  · rw [encode_finite legible.finite]
    exact Shape.decode_takes takes (by omega) (by decide)
  · have latency := Double.same_self legible.finite
    simp [same_eq, size, latency]

end Metrics

namespace HistoryEntry
variable {e : HistoryEntry} {depth : Nat}

structure Legible (e : HistoryEntry) : Prop where
  timestamp : e.timestamp.Legible
  details : (Json.obj e.details).Legible

theorem reads (legible : e.Legible) : Draft.Reads e.encode := by
  refine Draft.reads_obj ?_
  simp only [List.forall_mem_cons, List.not_mem_nil, IsEmpty.forall_iff, implies_true, and_true]
  exact ⟨Draft.reads_legible legible.details, Draft.reads_str _, Draft.reads_str _⟩

theorem decode_encode (legible : e.Legible) (shallow : depth + e.encode.nesting ≤ Decode.depthLimit) :
    decode depth e.encode.draft = .ok e := by
  have details : (Json.obj e.details).nesting < e.encode.nesting :=
    Json.nesting_member (m := ("details", .obj e.details)) (by simp)
  have takes : shape.Takes (depth + 1) shape.start []
      [("details", .obj e.details), ("event", .str e.event), ("timestamp", .ofInstant e.timestamp)] e
      ["timestamp", "event", "details"] :=
    .field rfl (by decide) (Decode.put_ok (Decode.table_draft legible.details (by omega)) _) <|
    .field rfl (by decide) (Decode.put_ok rfl _) <|
    .field rfl (by decide) (Decode.put_ok (Decode.instant_draft legible.timestamp) _) .nil
  exact Shape.decode_takes takes (by omega) (by decide)

end HistoryEntry

theorem list_same {α : Type} [BEq α] {l : List α} (each : ∀ a ∈ l, (a == a) = true) : (l == l) = true := by
  induction l with
  | nil => rfl
  | cons a rest ih =>
    have both := ih fun b there => each b (.tail _ there)
    rw [List.cons_beq_cons, each a (.head _), both, Bool.and_self]

theorem Table.same_self {t : Table Json} (legible : (Json.obj t).Legible) : (t == t) = true := by
  cases legible with
  | obj _ each =>
    refine list_same fun m there => ?_
    change (m.1 == m.1 && m.2 == m.2) = true
    rw [beq_self_eq_true, Json.same_self (each m there), Bool.and_self]

theorem AgentTask.same_self {t : AgentTask} (legible : t.Legible) : (t == t) = true := by
  change (t.id == t.id && (t.taskType == t.taskType && (t.priority == t.priority && (t.status == t.status &&
    (t.payload == t.payload && t.createdAt == t.createdAt))))) = true
  simp [Json.same_self legible.payload]

theorem HistoryEntry.same_self {e : HistoryEntry} (legible : e.Legible) : (e == e) = true := by
  change (e.timestamp == e.timestamp && (e.event == e.event && e.details == e.details)) = true
  simp [Table.same_self legible.details]

namespace AgentState
variable {s : AgentState} {depth : Nat} {m : String × Json} {keeps keeps' : String → Bool}

structure Legible (s : AgentState) : Prop where
  memory : (Json.obj s.memory).Legible
  pendingTasks : ∀ t ∈ s.pendingTasks, t.Legible
  activeTask : ∀ t ∈ s.activeTask, t.Legible
  configuration : (Json.obj s.configuration).Legible
  metrics : s.metrics.Legible
  history : ∀ e ∈ s.history, e.Legible

def members (s : AgentState) : List (String × Json) :=
  [("active_task", .ofOption AgentTask.encode s.activeTask), ("configuration", .obj s.configuration),
    ("history", .arr (s.history.map HistoryEntry.encode)), ("memory", .obj s.memory),
    ("pending_tasks", .arr (s.pendingTasks.map AgentTask.encode)), ("performance_metrics", s.metrics.encode)]

/-- The fields that are kept; the others have their defaults. -/
def keeping (s : AgentState) (keeps : String → Bool) : AgentState where
  memory := if keeps "memory" then s.memory else []
  pendingTasks := if keeps "pending_tasks" then s.pendingTasks else []
  activeTask := if keeps "active_task" then s.activeTask else none
  configuration := if keeps "configuration" then s.configuration else []
  metrics := if keeps "performance_metrics" then s.metrics else .fresh
  history := if keeps "history" then s.history else []

theorem keeping_congr (same : ∀ m ∈ s.members, keeps m.1 = keeps' m.1) (t : AgentState) :
    t.keeping keeps = t.keeping keeps' := by
  simp only [members, List.forall_mem_cons] at same
  obtain ⟨task, configuration, history, memory, tasks, metrics, _⟩ := same
  simp only [keeping, task, configuration, history, memory, tasks, metrics]

theorem keeping_legible (legible : s.Legible) (keeps : String → Bool) : (s.keeping keeps).Legible := by
  have none : (Json.obj []).Legible := .obj Table.ordered_nil nofun
  constructor <;> dsimp only [keeping] <;> split
  exacts [legible.memory, none, legible.pendingTasks, nofun, legible.activeTask, nofun, legible.configuration, none,
    legible.metrics, Metrics.fresh_legible, legible.history, nofun]

theorem member_reads (legible : s.Legible) (there : m ∈ s.members) : Draft.Reads m.2 := by
  revert m
  simp only [members, List.forall_mem_cons, List.not_mem_nil, IsEmpty.forall_iff, implies_true, and_true]
  exact ⟨Draft.reads_option fun t there => AgentTask.reads (legible.activeTask t there),
    Draft.reads_legible legible.configuration, Draft.reads_list fun e there => HistoryEntry.reads (legible.history e there),
    Draft.reads_legible legible.memory, Draft.reads_list fun t there => AgentTask.reads (legible.pendingTasks t there),
    Metrics.reads legible.metrics⟩

theorem put_member {n : Metrics} (legible : s.Legible) (shallow : ∀ m ∈ s.members, depth + m.2.nesting ≤ Decode.depthLimit)
    (read : Metrics.decode depth s.metrics.encode.draft = .ok n) :
    ∀ m ∈ s.members, ∀ seen : List String, m.1 ∉ seen →
      shape.put m.1 ({ s with metrics := n }.keeping fun name => decide (name ∈ seen)) depth m.2.draft =
        .ok ({ s with metrics := n }.keeping fun name => decide (name ∈ m.1 :: seen)) := by
  simp only [members, List.forall_mem_cons, List.not_mem_nil, IsEmpty.forall_iff, implies_true, and_true] at shallow ⊢
  obtain ⟨task, configuration, history, memory, tasks, metrics⟩ := shallow
  refine ⟨fun seen _ => ?_, fun seen _ => ?_, fun seen _ => ?_, fun seen _ => ?_, fun seen _ => ?_, fun seen _ => ?_⟩
  · have read : Decode.option AgentTask.decode depth (Json.ofOption AgentTask.encode s.activeTask).draft =
        .ok s.activeTask :=
      Decode.option_draft (fun t there => AgentTask.decode_encode (legible.activeTask t there) (by rwa [there] at task))
        fun _ => nofun
    exact (Decode.put_ok read _).trans (congrArg _ (by simp [keeping]))
  · have read := Decode.table_draft legible.configuration configuration
    exact (Decode.put_ok read _).trans (congrArg _ (by simp [keeping]))
  · have read : Decode.list HistoryEntry.decode depth (Json.arr (s.history.map HistoryEntry.encode)).draft =
        .ok s.history :=
      Decode.list_draft history fun e there _ => HistoryEntry.decode_encode (legible.history e there)
    exact (Decode.put_ok read _).trans (congrArg _ (by simp [keeping]))
  · have read := Decode.table_draft legible.memory memory
    exact (Decode.put_ok read _).trans (congrArg _ (by simp [keeping]))
  · have read : Decode.list AgentTask.decode depth (Json.arr (s.pendingTasks.map AgentTask.encode)).draft =
        .ok s.pendingTasks :=
      Decode.list_draft tasks fun t there _ => AgentTask.decode_encode (legible.pendingTasks t there)
    exact (Decode.put_ok read _).trans (congrArg _ (by simp [keeping]))
  · exact (Decode.put_ok read _).trans (congrArg _ (by simp [keeping]))

theorem same_metrics {n : Metrics} (legible : s.Legible) (same : (n == s.metrics) = true) :
    ({ s with metrics := n } == s) = true := by
  have task : (s.activeTask == s.activeTask) = true := by
    cases task : s.activeTask with
    | none => rfl
    | some t => exact AgentTask.same_self (legible.activeTask t task)
  have tasks := list_same fun t there => AgentTask.same_self (legible.pendingTasks t there)
  have history := list_same fun e there => HistoryEntry.same_self (legible.history e there)
  change (s.memory == s.memory && (s.pendingTasks == s.pendingTasks && (s.activeTask == s.activeTask &&
    (s.configuration == s.configuration && (n == s.metrics && s.history == s.history))))) = true
  rw [Table.same_self legible.memory, tasks, task, Table.same_self legible.configuration, same, history]
  rfl

theorem same_keeping {n : Metrics} (legible : s.Legible) (same : (n == s.metrics) = true) (keeps : String → Bool) :
    ({ s with metrics := n }.keeping keeps == s.keeping keeps) = true := by
  have parts : { s with metrics := n }.keeping keeps =
      { s.keeping keeps with metrics := if keeps "performance_metrics" then n else .fresh } := rfl
  rw [parts]
  refine same_metrics (keeping_legible legible keeps) ?_
  dsimp only [keeping]
  split
  · exact same
  · rfl

theorem decode_edited {removed : List String} {added edited : List (String × Json)} (legible : s.Legible)
    (shallow : depth + s.encode.nesting ≤ Decode.depthLimit) (edits : shape.Edited s.members removed added edited) :
    ∃ t, decode depth (Json.obj edited).draft = .ok t ∧ (t == s.keeping fun name => decide (name ∉ removed)) = true := by
  have inside : ∀ m ∈ s.members, depth + 1 + m.2.nesting ≤ Decode.depthLimit := by
    intro m there
    have lower : m.2.nesting < s.encode.nesting := Json.nesting_member there
    omega
  -- An amount may be read in another scale, so the metrics that are read need only be equal to those written.
  have metrics : ("performance_metrics", s.metrics.encode) ∈ s.members := by simp [members]
  obtain ⟨n, read, same⟩ := Metrics.decode_encode legible.metrics (inside _ metrics)
  have known : ∀ m ∈ s.members, shape.knows m.1 = true := by
    simp only [members, List.forall_mem_cons, List.not_mem_nil, IsEmpty.forall_iff, implies_true, and_true]
    decide
  have distinct : (s.members.map (·.1)).Nodup := by
    change ["active_task", "configuration", "history", "memory", "pending_tasks", "performance_metrics"].Nodup
    decide
  obtain ⟨seen, decoded, all⟩ := Shape.decode_edited
    (fun seen => { s with metrics := n }.keeping fun name => decide (name ∈ seen)) edits known distinct
    (by have := inside _ metrics; omega) rfl rfl (put_member legible inside read) (by simp [shape])
  have kept : { s with metrics := n }.keeping (fun name => decide (name ∈ seen)) =
      { s with metrics := n }.keeping fun name => decide (name ∉ removed) :=
    keeping_congr (fun m there => decide_eq_decide.mpr (all m there)) _
  exact ⟨_, decoded, kept ▸ same_keeping legible same _⟩

theorem decode_encode (legible : s.Legible) (shallow : depth + s.encode.nesting ≤ Decode.depthLimit) :
    ∃ t, decode depth s.encode.draft = .ok t ∧ (t == s) = true :=
  decode_edited legible shallow (.unedited shape s.members)

theorem reads (legible : s.Legible) : Draft.Reads s.encode :=
  Draft.reads_obj fun _ => member_reads legible

end AgentState

namespace Registration
variable {r : Registration} {depth : Nat} {m : String × Json} {keeps keeps' : String → Bool}

structure Legible (r : Registration) : Prop where
  state : r.state.Legible
  registeredAt : r.registeredAt.Legible
  lastHeartbeat : r.lastHeartbeat.Legible

def members (r : Registration) : List (String × Json) :=
  [("capabilities", .ofStrings r.capabilities), ("last_heartbeat", .ofInstant r.lastHeartbeat), ("name", .str r.name),
    ("registered_at", .ofInstant r.registeredAt), ("state", r.state.encode), ("status", .str r.status.text),
    ("type", .str r.agentType), ("version", .str r.version)]

/-- The fields that are kept; the others are as they are before anything is read. -/
def keeping (r : Registration) (keeps : String → Bool) : Registration where
  name := if keeps "name" then r.name else ""
  agentType := if keeps "type" then r.agentType else ""
  version := if keeps "version" then r.version else ""
  capabilities := if keeps "capabilities" then r.capabilities else []
  status := if keeps "status" then r.status else .active
  state := if keeps "state" then r.state else {}
  registeredAt := if keeps "registered_at" then r.registeredAt else ⟨0, 0⟩
  lastHeartbeat := if keeps "last_heartbeat" then r.lastHeartbeat else ⟨0, 0⟩

theorem keeping_congr (same : ∀ m ∈ r.members, keeps m.1 = keeps' m.1) (q : Registration) :
    q.keeping keeps = q.keeping keeps' := by
  simp only [members, List.forall_mem_cons] at same
  obtain ⟨capabilities, heartbeat, name, registered, state, status, type, version, _⟩ := same
  simp only [keeping, capabilities, heartbeat, name, registered, state, status, type, version]

theorem member_reads (legible : r.Legible) (there : m ∈ r.members) : Draft.Reads m.2 := by
  revert m
  simp only [members, List.forall_mem_cons, List.not_mem_nil, IsEmpty.forall_iff, implies_true, and_true]
  exact ⟨Draft.reads_list fun name _ => Draft.reads_str name, Draft.reads_str _, Draft.reads_str _, Draft.reads_str _, AgentState.reads legible.state,
    Draft.reads_str _, Draft.reads_str _, Draft.reads_str _⟩

theorem put_member {t : AgentState} (legible : r.Legible)
    (shallow : ∀ m ∈ r.members, depth + m.2.nesting ≤ Decode.depthLimit)
    (read : AgentState.decode depth r.state.encode.draft = .ok t) :
    ∀ m ∈ r.members, ∀ seen : List String, m.1 ∉ seen →
      shape.put m.1 ({ r with state := t }.keeping fun name => decide (name ∈ seen)) depth m.2.draft =
        .ok ({ r with state := t }.keeping fun name => decide (name ∈ m.1 :: seen)) := by
  simp only [members, List.forall_mem_cons, List.not_mem_nil, IsEmpty.forall_iff, implies_true, and_true] at shallow ⊢
  refine ⟨fun seen _ => ?_, fun seen _ => ?_, fun seen _ => ?_, fun seen _ => ?_, fun seen _ => ?_, fun seen _ => ?_,
    fun seen _ => ?_, fun seen _ => ?_⟩
  · have read : Decode.list Decode.text depth (Json.ofStrings r.capabilities).draft = .ok r.capabilities :=
      Decode.list_draft shallow.1 fun _ _ _ _ => rfl
    exact (Decode.put_ok read _).trans (congrArg _ (by simp [keeping]))
  · exact (Decode.put_ok (Decode.instant_draft legible.lastHeartbeat) _).trans (congrArg _ (by simp [keeping]))
  · exact (Decode.put_ok rfl _).trans (congrArg _ (by simp [keeping]))
  · exact (Decode.put_ok (Decode.instant_draft legible.registeredAt) _).trans (congrArg _ (by simp [keeping]))
  · exact (Decode.put_ok read _).trans (congrArg _ (by simp [keeping]))
  · exact (Decode.put_ok (AgentStatus.decode_text _ _) _).trans (congrArg _ (by simp [keeping]))
  · exact (Decode.put_ok rfl _).trans (congrArg _ (by simp [keeping]))
  · exact (Decode.put_ok rfl _).trans (congrArg _ (by simp [keeping]))

theorem same_state {t : AgentState} (same : (t == r.state) = true) : ({ r with state := t } == r) = true := by
  change (r.name == r.name && (r.agentType == r.agentType && (r.version == r.version && (r.capabilities == r.capabilities &&
    (r.status == r.status && (t == r.state && (r.registeredAt == r.registeredAt &&
      r.lastHeartbeat == r.lastHeartbeat))))))) = true
  simp [same]

theorem same_keeping {t : AgentState} (same : (t == r.state) = true) (keeps : String → Bool) :
    ({ r with state := t }.keeping keeps == r.keeping keeps) = true := by
  have parts : { r with state := t }.keeping keeps =
      { r.keeping keeps with state := if keeps "state" then t else {} } := rfl
  rw [parts]
  refine same_state ?_
  dsimp only [keeping]
  split
  · exact same
  · rfl

theorem decode_edited {removed : List String} {added edited : List (String × Json)} (legible : r.Legible)
    (shallow : depth + r.encode.nesting ≤ Decode.depthLimit) (edits : shape.Edited r.members removed added edited) :
    ∃ q, decode depth (Json.obj edited).draft = .ok q ∧ (q == r.keeping fun name => decide (name ∉ removed)) = true := by
  have inside : ∀ m ∈ r.members, depth + 1 + m.2.nesting ≤ Decode.depthLimit := by
    intro m there
    have lower : m.2.nesting < r.encode.nesting := Json.nesting_member there
    omega
  have state : ("state", r.state.encode) ∈ r.members := by simp [members]
  obtain ⟨t, read, same⟩ := AgentState.decode_encode legible.state (inside _ state)
  have known : ∀ m ∈ r.members, shape.knows m.1 = true := by
    simp only [members, List.forall_mem_cons, List.not_mem_nil, IsEmpty.forall_iff, implies_true, and_true]
    decide
  have names : r.members.map (·.1) =
      ["capabilities", "last_heartbeat", "name", "registered_at", "state", "status", "type", "version"] := rfl
  obtain ⟨seen, decoded, all⟩ := Shape.decode_edited
    (fun seen => { r with state := t }.keeping fun name => decide (name ∈ seen)) edits known (names ▸ by decide)
    (by have := inside _ state; omega) rfl rfl (put_member legible inside read) (names ▸ by decide)
  have kept : { r with state := t }.keeping (fun name => decide (name ∈ seen)) =
      { r with state := t }.keeping fun name => decide (name ∉ removed) :=
    keeping_congr (fun m there => decide_eq_decide.mpr (all m there)) _
  exact ⟨_, decoded, kept ▸ same_keeping same _⟩

theorem decode_encode (legible : r.Legible) (shallow : depth + r.encode.nesting ≤ Decode.depthLimit) :
    ∃ q, decode depth r.encode.draft = .ok q ∧ (q == r) = true :=
  decode_edited legible shallow (.unedited shape r.members)

theorem reads (legible : r.Legible) : Draft.Reads r.encode :=
  Draft.reads_obj fun _ => member_reads legible

end Registration
end Handover
