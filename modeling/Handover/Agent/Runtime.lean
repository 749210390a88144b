import Handover.Message

/-!
# Agent runtimes

The side of the control protocol that runs with an agent. Pause and resume set a flag, a ping is answered
whether the agent is paused or not, and what is no command changes nothing.
-/

namespace Handover

structure AgentRuntime where
  name : String
  paused : Bool := false
  /-- Pings whose answer reached the one who asked. -/
  pings : Nat := 0
  deriving DecidableEq, Repr

namespace AgentRuntime

/-- Takes a message off the control topic. `true` says that it is to be answered. -/
def receive (a : AgentRuntime) (m : Message) : AgentRuntime × Bool :=
  match m.decodePayload Command.decode with
  | .ok .pause => ({ a with paused := true }, false)
  | .ok .resume => ({ a with paused := false }, false)
  | .ok .ping => (a, true)
  | .error _ => (a, false)

/-- Counts an answer that was taken. -/
def answered (a : AgentRuntime) (result : Except Error Unit) : AgentRuntime :=
  match result with
  | .ok () => { a with pings := a.pings + 1 }
  | .error _ => a

end AgentRuntime
end Handover
