import Handover.Proofs.Crowd

/-!
# A coordinator at its desk

Callers ask a coordinator for operations, calls to replace agents go on, and if there is a writer it brings the changes
to a board whenever it gets to it. The store of the board is shared: others write to it, and it may refuse any call.
-/

namespace Handover

/-- What an operation gives back to its caller. -/
inductive Desk.Answer where
  | done (result : Except Error Unit)
  | agent (result : Except Error Registration)
  | agents (list : List Registration)
  | names (list : List String)
  | session (result : Except Error Session)
  | sessions (list : List Session)

/-- A coordinator with the calls it serves, and with its writer if it has one. -/
structure Desk where
  crowd : Crowd
  writer : Option BoardWriter := none
  store : Store := {}
  answers : List Desk.Answer := []
  /-- What the calls sent to agents. -/
  sent : List Errand := []

inductive Operation where
  | register (ctx : Context) (a : Registration) (around : Surroundings)
  | unregister (ctx : Context) (name : String) (around : Surroundings)
  | heartbeat (name : String) (now : Instant)
  | updateState (name : String) (state : AgentState)
  /-- A recovery enters an agent that it has read. -/
  | restore (a : Registration)
  | get (name : String)
  | list
  | stale (now : Instant)
  | session (id : String)
  | sessions
  /-- The writer is to tell when it has done all before. -/
  | flush (ticket : Nat)
  /-- One of the calls goes on, with what the bus gives after all that was sent. -/
  | beat (member : Nat) (around : Surroundings) (bus : List Errand → Except Error (Option Message))

inductive Occurrence where
  | operation (o : Operation)
  /-- The writer does one step. -/
  | write
  /-- Others leave the store like this, or it refuses other calls from now on. -/
  | store (s : Store)

namespace Occurrence

def operation? : Occurrence → Option Operation
  | operation o => some o
  | write | store _ => none

end Occurrence

namespace Crowd

/-- What the call in this place waits for, if it waits for the bus. -/
def errand? (crowd : Crowd) (i : Nat) : Option Errand :=
  match crowd.members[i]?.bind Member.swap with
  | some (.ok s) => s.errand
  | _ => none

end Crowd

namespace Desk

/-- There is a writer if there is a board to write to, and the configuration wants it. -/
def writerFor (config : Config) : Option Blackboard → Option BoardWriter
  | some board => if config.blackboard.mirrorEnabled then some { board } else none
  | none => none

def opened (orders : List Order) (config : Config) (board : Option Blackboard) (store : Store) : Desk where
  crowd := Crowd.gather orders (Coordinator.ofConfig config board)
  writer := writerFor config board
  store

def coordinator (d : Desk) : Coordinator := d.crowd.coordinator

def events (d : Desk) : List SwapEvent := d.coordinator.events

/-- Keeps the calls and the coordinator after a change. What the registry noted goes to the writer, if there is one. -/
def keep (d : Desk) (crowd : Crowd) : Desk :=
  let c := crowd.coordinator
  let kept := { c with registry := { c.registry with writes := [] } }
  { d with
    crowd := { crowd with coordinator := kept }
    writer := d.writer.map (·.submit c.registry.writes) }

def give (d : Desk) (a : Answer) : Desk := { d with answers := d.answers ++ [a] }

/-- Keeps the coordinator after a change that may have been refused. -/
def change (d : Desk) : Except Error Coordinator → Desk
  | .ok coordinator => (d.keep { d.crowd with coordinator }).give (.done (.ok ()))
  | .error e => d.give (.done (.error e))

def beat (d : Desk) (b : Beat) : Desk :=
  let crowd := d.crowd.beat b
  { d.keep crowd with sent := d.sent ++ (crowd.errand? b.member).toList }

def perform (d : Desk) : Operation → Desk
  | .register ctx a around => d.change (d.coordinator.register ctx a around)
  | .unregister ctx name around => d.change (d.coordinator.unregister ctx name around)
  | .heartbeat name now => d.change ((d.coordinator.heartbeat name now).map (·.2))
  | .updateState name state => d.change (d.coordinator.updateState name state)
  | .restore a => d.change ((d.coordinator.registry.restore a).map fun registry => { d.coordinator with registry })
  | .get name => d.give (.agent (d.coordinator.get name))
  | .list => d.give (.agents d.coordinator.list)
  | .stale now => d.give (.names (d.coordinator.stale now))
  | .session id => d.give (.session (d.coordinator.session id))
  | .sessions => d.give (.sessions d.coordinator.sessionList)
  | .flush ticket => { d with writer := d.writer.map (·.submit [.mark ticket]) }
  | .beat member around bus => d.beat { member, around, heard := bus d.sent }

def write (d : Desk) : Desk :=
  match d.writer with
  | none => d
  | some w =>
    match w.step d.store with
    | some (writer, store) => { d with writer := some writer, store }
    | none => d

theorem write_crowd (d : Desk) : d.write.crowd = d.crowd := by
  unfold write
  split
  · rfl
  · split <;> rfl

def act (d : Desk) : Occurrence → Desk
  | .operation o => d.perform o
  | .write => d.write
  | .store store => { d with store }

def performAll (d : Desk) (operations : List Operation) : Desk := operations.foldl perform d

def after (d : Desk) (occurrences : List Occurrence) : Desk := occurrences.foldl act d

end Desk
end Handover
