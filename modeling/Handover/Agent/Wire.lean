import Handover.Agent.Registration
import Handover.Json.Decode

/-!
# Agents as JSON

Members of objects are written in the order of their names, here and for sessions and messages. A record may be written
in any other order, such as that of its fields, without a difference to anyone who reads it: names are distinct, and
decoding looks a member up by its name.
-/

namespace Handover

namespace TaskStatus

def all : List (String × TaskStatus) := [pending, running, completed, failed].map fun s => (s.text, s)

def decode : Decoder TaskStatus := Decode.variant all

end TaskStatus

namespace AgentStatus

def all : List (String × AgentStatus) := [active, paused, terminated].map fun s => (s.text, s)

def decode : Decoder AgentStatus := Decode.variant all

end AgentStatus

namespace AgentTask

def encode (t : AgentTask) : Json :=
  .obj [("created_at", .ofInstant t.createdAt), ("id", .str t.id), ("payload", t.payload),
    ("priority", .int t.priority), ("status", .str t.status.text), ("task_type", .str t.taskType)]

def shape : Shape AgentTask where
  title := "AgentTask"
  fields := [("id", .required), ("task_type", .required), ("priority", .required),
    ("status", .required), ("payload", .defaulted), ("created_at", .required)]
  start := { id := "", taskType := "", priority := 0, createdAt := ⟨0, 0⟩ }
  put name t depth d := match name with
    | "id" => do return { t with id := ← Decode.text depth d }
    | "task_type" => do return { t with taskType := ← Decode.text depth d }
    | "priority" => do return { t with priority := ← Decode.int32 depth d }
    | "status" => do return { t with status := ← TaskStatus.decode depth d }
    | "payload" => do return { t with payload := ← Decode.json depth d }
    | _ => do return { t with createdAt := ← Decode.instant depth d }

def decode : Decoder AgentTask := shape.decode

end AgentTask

namespace Metrics

def encode (m : Metrics) : Json :=
  .obj [("avg_latency_ms", if m.avgLatencyMs.isFinite then .float m.avgLatencyMs else .null),
    ("failed_tasks", .int m.failed), ("last_updated", .ofOption .ofInstant m.lastUpdated),
    ("realized_pnl", .str m.realizedPnl.text), ("successful_tasks", .int m.successful),
    ("total_tasks", .int m.total)]

def shape : Shape Metrics where
  title := "PerformanceMetrics"
  fields := [("total_tasks", .required), ("successful_tasks", .required), ("failed_tasks", .required),
    ("realized_pnl", .defaulted), ("avg_latency_ms", .defaulted), ("last_updated", .defaulted)]
  start := Metrics.fresh
  put name m depth d := match name with
    | "total_tasks" => do return { m with total := ← Decode.int64 depth d }
    | "successful_tasks" => do return { m with successful := ← Decode.int64 depth d }
    | "failed_tasks" => do return { m with failed := ← Decode.int64 depth d }
    | "realized_pnl" => do return { m with realizedPnl := ← Decode.amount depth d }
    | "avg_latency_ms" => do return { m with avgLatencyMs := ← Decode.real depth d }
    | _ => do return { m with lastUpdated := ← Decode.option Decode.instant depth d }

def decode : Decoder Metrics := shape.decode

end Metrics

namespace HistoryEntry

def encode (e : HistoryEntry) : Json :=
  .obj [("details", .obj e.details), ("event", .str e.event), ("timestamp", .ofInstant e.timestamp)]

def shape : Shape HistoryEntry where
  title := "StateHistoryEntry"
  fields := [("timestamp", .required), ("event", .required), ("details", .defaulted)]
  start := { timestamp := ⟨0, 0⟩, event := "" }
  put name e depth d := match name with
    | "timestamp" => do return { e with timestamp := ← Decode.instant depth d }
    | "event" => do return { e with event := ← Decode.text depth d }
    | _ => do return { e with details := ← Decode.table depth d }

def decode : Decoder HistoryEntry := shape.decode

end HistoryEntry

namespace AgentState

def encode (s : AgentState) : Json :=
  .obj [("active_task", .ofOption AgentTask.encode s.activeTask), ("configuration", .obj s.configuration),
    ("history", .arr (s.history.map HistoryEntry.encode)), ("memory", .obj s.memory),
    ("pending_tasks", .arr (s.pendingTasks.map AgentTask.encode)),
    ("performance_metrics", s.metrics.encode)]

def shape : Shape AgentState where
  title := "AgentState"
  fields := [("memory", .defaulted), ("pending_tasks", .defaulted), ("active_task", .defaulted),
    ("configuration", .defaulted), ("performance_metrics", .defaulted), ("history", .defaulted)]
  start := {}
  put name s depth d := match name with
    | "memory" => do return { s with memory := ← Decode.table depth d }
    | "pending_tasks" => do return { s with pendingTasks := ← Decode.list AgentTask.decode depth d }
    | "active_task" => do return { s with activeTask := ← Decode.option AgentTask.decode depth d }
    | "configuration" => do return { s with configuration := ← Decode.table depth d }
    | "performance_metrics" => do return { s with metrics := ← Metrics.decode depth d }
    | _ => do return { s with history := ← Decode.list HistoryEntry.decode depth d }

def decode : Decoder AgentState := shape.decode

end AgentState

namespace Registration

def encode (r : Registration) : Json :=
  .obj [("capabilities", .ofStrings r.capabilities), ("last_heartbeat", .ofInstant r.lastHeartbeat),
    ("name", .str r.name), ("registered_at", .ofInstant r.registeredAt), ("state", r.state.encode),
    ("status", .str r.status.text), ("type", .str r.agentType), ("version", .str r.version)]

def shape : Shape Registration where
  title := "AgentRegistration"
  fields := [("name", .required), ("type", .required), ("version", .defaulted),
    ("capabilities", .defaulted), ("status", .defaulted), ("state", .defaulted),
    ("registered_at", .required), ("last_heartbeat", .required)]
  start := { name := "", agentType := "", registeredAt := ⟨0, 0⟩, lastHeartbeat := ⟨0, 0⟩ }
  put name r depth d := match name with
    | "name" => do return { r with name := ← Decode.text depth d }
    | "type" => do return { r with agentType := ← Decode.text depth d }
    | "version" => do return { r with version := ← Decode.text depth d }
    | "capabilities" => do return { r with capabilities := ← Decode.list Decode.text depth d }
    | "status" => do return { r with status := ← AgentStatus.decode depth d }
    | "state" => do return { r with state := ← AgentState.decode depth d }
    | "registered_at" => do return { r with registeredAt := ← Decode.instant depth d }
    | _ => do return { r with lastHeartbeat := ← Decode.instant depth d }

def decode : Decoder Registration := shape.decode

end Registration
end Handover
