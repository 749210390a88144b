import Handover.Json.Value
import Handover.Number.Decimal
import Handover.Time.Instant

/-!
# What an agent carries

The memory, tasks, configuration, counters and history that a successor takes over. Averages are kept in
any arithmetic `R`; agents use doubles.
-/

namespace Handover

inductive TaskStatus where
  | pending
  | running
  | completed
  | failed
  deriving DecidableEq, Repr

namespace TaskStatus

def text : TaskStatus → String
  | pending => "pending"
  | running => "running"
  | completed => "completed"
  | failed => "failed"

def isFinished : TaskStatus → Bool
  | completed | failed => true
  | pending | running => false

end TaskStatus

/-- A piece of work queued on an agent, or in its hands. -/
structure AgentTask where
  id : String
  taskType : String
  priority : Int
  status : TaskStatus := .pending
  payload : Json := .null
  createdAt : Instant
  deriving BEq, Repr

structure Metrics (R : Type := Double) where
  total : Int := 0
  successful : Int := 0
  failed : Int := 0
  realizedPnl : Decimal := {}
  avgLatencyMs : R
  lastUpdated : Option Instant := none
  deriving BEq, Repr

namespace Metrics
variable {R : Type} [Add R] [Mul R] [Div R] [IntCast R]

/-- The running average takes one more latency in; the count grows by one. -/
def record (m : Metrics R) (latency : R) (now : Instant) : Metrics R :=
  let n : R := (m.total : Int)
  { m with
    avgLatencyMs := (m.avgLatencyMs * n + latency) / (n + ((1 : Int) : R))
    total := m.total + 1
    lastUpdated := some now }

def recordSuccess (m : Metrics R) (latency : R) (now : Instant) : Metrics R :=
  let m := m.record latency now
  { m with successful := m.successful + 1 }

def recordFailure (m : Metrics R) (latency : R) (now : Instant) : Metrics R :=
  let m := m.record latency now
  { m with failed := m.failed + 1 }

/-- The share of finished tasks that succeeded, zero when none finished. -/
def successRate (m : Metrics R) : R :=
  if m.total = 0 then ((0 : Int) : R) else ((m.successful : Int) : R) / ((m.total : Int) : R)

end Metrics

def Metrics.fresh : Metrics := { avgLatencyMs := Double.zero }

structure HistoryEntry where
  timestamp : Instant
  event : String
  details : Table Json := []
  deriving BEq, Repr

namespace HistoryEntry

def withDetail (e : HistoryEntry) (name : String) (value : Json) : HistoryEntry :=
  { e with details := e.details.insert name value }

end HistoryEntry

structure AgentState where
  memory : Table Json := []
  pendingTasks : List AgentTask := []
  activeTask : Option AgentTask := none
  configuration : Table Json := []
  metrics : Metrics := Metrics.fresh
  history : List HistoryEntry := []
  deriving BEq, Repr

namespace AgentState

instance : Inhabited AgentState := ⟨{}⟩

def withMemory (s : AgentState) (name : String) (value : Json) : AgentState :=
  { s with memory := s.memory.insert name value }

def withConfiguration (s : AgentState) (name : String) (value : Json) : AgentState :=
  { s with configuration := s.configuration.insert name value }

def withPending (s : AgentState) (task : AgentTask) : AgentState :=
  { s with pendingTasks := s.pendingTasks ++ [task] }

def recordHistory (s : AgentState) (entry : HistoryEntry) : AgentState :=
  { s with history := s.history ++ [entry] }

def outstanding (s : AgentState) : Nat :=
  s.pendingTasks.length + (if s.activeTask.isSome then 1 else 0)

end AgentState
end Handover
