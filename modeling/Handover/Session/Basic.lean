import Handover.Agent.Registration
import Handover.Error

/-!
# Swap sessions

The record of one attempt to replace an agent. The status only moves forward; `transition` refuses any
other move. `fail` and `rollBack` close the record: running steps fail with it, and a roll-back that the
status does not allow becomes a failure. A closed session ignores both.
-/

namespace Handover

inductive SwapStatus where
  | initiating
  | capturingState
  | pausing
  | transferringState
  | verifying
  | completed
  | failed
  /-- The old agent was resumed after a failure past the pause. -/
  | rolledBack
  deriving DecidableEq, Repr

namespace SwapStatus

def text : SwapStatus → String
  | initiating => "initiating"
  | capturingState => "capturing_state"
  | pausing => "pausing"
  | transferringState => "transferring_state"
  | verifying => "verifying"
  | completed => "completed"
  | failed => "failed"
  | rolledBack => "rolled_back"

def isTerminal : SwapStatus → Bool
  | completed | failed | rolledBack => true
  | _ => false

/-- The moves of the protocol. Any live status may fail; a roll-back needs the old agent paused. -/
def canBecome : SwapStatus → SwapStatus → Bool
  | completed, _ | failed, _ | rolledBack, _ => false
  | _, failed => true
  | initiating, capturingState => true
  | capturingState, pausing => true
  | pausing, verifying | pausing, transferringState | pausing, rolledBack => true
  | verifying, transferringState | verifying, rolledBack => true
  | transferringState, completed | transferringState, rolledBack => true
  | _, _ => false

end SwapStatus

inductive StepStatus where
  | running
  | completed
  | failed
  deriving DecidableEq, Repr

namespace StepStatus

def text : StepStatus → String
  | running => "running"
  | completed => "completed"
  | failed => "failed"

end StepStatus

structure SwapStep where
  name : String
  status : StepStatus := .running
  startedAt : Instant
  completedAt : Option Instant := none
  duration : Option Span := none
  error : Option String := none
  deriving BEq, Repr

namespace SwapStep

def isRunning (s : SwapStep) : Bool := s.status == .running

def finish (s : SwapStep) (status : StepStatus) (now : Instant) : SwapStep :=
  { s with status, completedAt := some now, duration := some (Instant.elapsed s.startedAt now) }

def complete (s : SwapStep) (now : Instant) : SwapStep := s.finish .completed now

def fail (s : SwapStep) (error : String) (now : Instant) : SwapStep :=
  { s with error := some error }.finish .failed now

end SwapStep

structure Session where
  id : String
  oldName : String
  newName : String
  status : SwapStatus := .initiating
  snapshot : Option AgentState := none
  steps : List SwapStep := []
  startedAt : Instant
  completedAt : Option Instant := none
  duration : Option Span := none
  error : Option String := none
  deriving BEq, Repr

namespace Session

def new (id oldName newName : String) (now : Instant) : Session :=
  { id, oldName, newName, startedAt := now }

def isTerminal (s : Session) : Bool := s.status.isTerminal

/-- Starts a step; the index names it from then on. -/
def addStep (s : Session) (name : String) (now : Instant) : Nat × Session :=
  (s.steps.length, { s with steps := s.steps ++ [{ name, startedAt := now }] })

def completeStep (s : Session) (index : Nat) (now : Instant) : Session :=
  { s with steps := s.steps.modify index (·.complete now) }

def failStep (s : Session) (index : Nat) (error : String) (now : Instant) : Session :=
  { s with steps := s.steps.modify index (·.fail error now) }

def step? (s : Session) (name : String) : Option SwapStep := s.steps.find? (·.name = name)

def transition (s : Session) (next : SwapStatus) : Except Error Session :=
  if s.status.canBecome next then .ok { s with status := next }
  else .error (.transition s.status.text next.text)

/-- A record closes at one reading of the clock, for its running steps and for itself. These may as well be readings one
after another: what is kept of each depends on its own reading only. -/
def finish (s : Session) (now : Instant) : Session :=
  { s with completedAt := some now, duration := some (Instant.elapsed s.startedAt now) }

def complete (s : Session) (now : Instant) : Except Error Session := do
  let s ← s.transition .completed
  return s.finish now

def closeStep (error : String) (now : Instant) (s : SwapStep) : SwapStep :=
  if s.isRunning then s.fail error now else s

/-- Closes the record, all of it at one time (see `finish`). -/
def endWith (s : Session) (status : SwapStatus) (error : String) (now : Instant) : Session :=
  if s.isTerminal then s
  else
    let status := if s.status.canBecome status then status else .failed
    { s with
      steps := s.steps.map (closeStep error now)
      status
      error := some error }.finish now

def fail (s : Session) (error : String) (now : Instant) : Session := s.endWith .failed error now

def rollBack (s : Session) (error : String) (now : Instant) : Session :=
  s.endWith .rolledBack error now

end Session

inductive SwapEvent where
  | started (session oldName newName : String)
  | stepCompleted (session step : String)
  | completed (session : String) (duration : Span)
  | failed (session error : String)
  | rolledBack (session error : String)
  deriving DecidableEq, Repr

end Handover
