import Handover.Agent.State

/-!
# Registrations

What is known of an agent under its name: kind, version, capabilities, status, the state it carries, and
when it was registered and last heard of.
-/

namespace Handover

inductive AgentStatus where
  /-- Running and accepting work. -/
  | active
  /-- Told to stop taking work; its state is kept. -/
  | paused
  /-- Shut down, kept for audit only. -/
  | terminated
  deriving DecidableEq, Repr

namespace AgentStatus

def text : AgentStatus → String
  | active => "active"
  | paused => "paused"
  | terminated => "terminated"

def isActive : AgentStatus → Bool
  | active => true
  | paused | terminated => false

end AgentStatus

structure Registration where
  name : String
  agentType : String
  version : String := ""
  capabilities : List String := []
  status : AgentStatus := .active
  state : AgentState := {}
  registeredAt : Instant
  lastHeartbeat : Instant
  deriving BEq, Repr

namespace Registration

def new (name agentType : String) (now : Instant) : Registration :=
  { name, agentType, registeredAt := now, lastHeartbeat := now }

def hasCapability (r : Registration) (capability : String) : Bool := r.capabilities.contains capability

/-- Nanoseconds since the last heartbeat, zero if the clock went back. -/
def heartbeatAge (r : Registration) (now : Instant) : Nat := r.lastHeartbeat.age now

end Registration
end Handover
