import Handover.Blackboard.Writer

/-!
# The registry

The agents that are running, by name. Every change leaves a write for the blackboard, in the order of the
changes; whether anybody takes the writes makes no difference to the agents.
-/

namespace Handover

structure Registry where
  agents : Table Registration := []
  writes : List BoardWrite := []
  deriving Repr

namespace Registry

def note (r : Registry) (w : BoardWrite) : Registry := { r with writes := r.writes ++ [w] }

def store (r : Registry) (a : Registration) : Registry :=
  { r with agents := r.agents.insert a.name a }.note (.putAgent a)

def nameRequired : Error := .validation "agent name required"

/-- Enters an agent as registered now, and gives back what was stored and what it replaced. -/
def register (r : Registry) (a : Registration) (now : Instant) :
    Except Error ((Registration × Option Registration) × Registry) :=
  if a.name = "" then .error nameRequired
  else
    let a := { a with registeredAt := now, lastHeartbeat := now }
    .ok ((a, r.agents.get? a.name), r.store a)

def restore (r : Registry) (a : Registration) : Except Error Registry :=
  if a.name = "" then .error nameRequired else .ok (r.store a)

/-- Removes an agent. Removing one that is not there is no error. -/
def unregister (r : Registry) (name : String) : Option Registration × Registry :=
  (r.agents.get? name, { r with agents := r.agents.erase name }.note (.removeAgent name))

def get (r : Registry) (name : String) : Except Error Registration :=
  match r.agents.get? name with
  | some a => .ok a
  | none => .error (.agentMissing name)

def contains (r : Registry) (name : String) : Bool := r.agents.contains name

/-- All agents, sorted by name. -/
def list (r : Registry) : List Registration := r.agents.values.mergeSort fun a b => a.name ≤ b.name

/-- How many agents there are. -/
def size (r : Registry) : Nat := r.agents.length

def modify (r : Registry) (name : String) (f : Registration → Registration) :
    Except Error (Registration × Registry) := do
  let a := f (← r.get name)
  return (a, { r with agents := r.agents.insert name a }.note (.putAgent a))

/-- Records that the agent was heard of now; the time of that only goes forward. -/
def heartbeat (r : Registry) (name : String) (now : Instant) : Except Error (Registration × Registry) :=
  r.modify name fun a => { a with lastHeartbeat := now.later a.lastHeartbeat.tick }

def updateState (r : Registry) (name : String) (s : AgentState) : Except Error (Registration × Registry) :=
  r.modify name fun a => { a with state := s }

def setStatus (r : Registry) (name : String) (s : AgentStatus) : Except Error (Registration × Registry) :=
  r.modify name fun a => { a with status := s }

/-- A copy of the agent's state with an entry at the end of its history. -/
def capture (r : Registry) (name : String) (entry : HistoryEntry) : Except Error AgentState := do
  return (← r.get name).state.recordHistory entry

/-- The longest age that can be asked for, `2 ^ 63 - 1` milliseconds. One that is longer counts as this one. -/
def longestAge : Nat := 9223372036854775807 * 1000000

/-- The names of the agents not heard of for longer than `maxAge` nanoseconds, sorted. -/
def stale (r : Registry) (maxAge : Nat) (now : Instant) : List String :=
  ((r.agents.values.filter fun a => min maxAge longestAge < a.heartbeatAge now).map (·.name)).mergeSort

end Registry
end Handover
