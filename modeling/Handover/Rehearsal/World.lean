import Handover.Rehearsal.Step
import Handover.Swap.Protocol

/-!
# The world of a rehearsal

All objects of a rehearsal, and the tasks that act on them. A task is an activity on top of the frames that
wait for what it gives.
-/

namespace Handover
namespace Rehearsal

/-- Where time and ids come from: each is made from the number of those made before. -/
structure Supply where
  time : Nat → Instant
  messageId : Nat → String
  sessionId : Nat → String

/-- A call to the bus that hooks see. -/
inductive BusCall where
  | publish (context : Context) (m : Message)
  | request (context : Context) (m : Message) (timeout : Nat)
  | reply (context : Context) (received : Message) (payload : Json)

namespace BusCall

def point : BusCall → HookPoint
  | publish .. => .publish
  | request .. => .request
  | reply .. => .reply

/-- The message by which hooks tell whether the call concerns them. -/
def about : BusCall → Message
  | publish _ m | request _ m _ => m
  | reply _ received _ => received

end BusCall

abbrev BusResult := Except Error (Option Message)

inductive Wait where
  | moment (t : Moment)
  | result (task : Nat)
  | bound (b : Bound) (due : Moment) (outcome : Except String Json)
  /-- A reply; `hooked` if hooks see the request. -/
  | reply (r : Request) (m : Message) (hooked : Bool)
  | passed (writer ticket : Nat)
  /-- A message for a receive loop, or the end of its subscription. -/
  | queue (subscription : Nat)
  | writes (writer : Nat)

inductive Activity where
  | run (step : Step) (received : Option Message)
  | finish (a : Answer)
  | handle (source : String) (received : Message) (actions : List (Action Step))
  /-- Handles a message as the runtime that has the subscription. -/
  | serve (subscription : Nat) (received : Message)
  | receive (subscription : Nat)
  | write (writer : Nat)
  | swap (coordinator : Nat) (s : Swap)
  /-- A call to the bus, with the hooks still to come before it. -/
  | call (c : BusCall) (hooks : List (Hook Step))
  /-- A request that has ended, with the hooks still to come. -/
  | requested (m : Message) (result : Except Error Message) (hooks : List (Hook Step))
  | give (result : BusResult)
  | wait (w : Wait)
  | stop

/-- What waits for an answer or for the result of a call. -/
inductive Frame where
  | spawned (task : Nat)
  | script
  | handler (source : String) (received : Message) (rest : List (Action Step))
  | before (c : BusCall) (rest : List (Hook Step))
  | after (m : Message) (result : Except Error Message) (rest : List (Hook Step))
  | swap (coordinator : Nat) (s : Swap)
  | ping (subscription : Nat)

structure Task where
  id : Nat
  activity : Activity
  frames : List Frame := []

inductive Handler where
  | actions (source : String) (actions : List (Action Step))
  | runtime

structure World where
  supply : Supply
  moment : Moment := 0
  readings : Nat := 0
  messageCount : Nat := 0
  sessionCount : Nat := 0
  tokens : Tokens := {}
  contexts : Table (Context × Nat) := []
  bus : Bus := {}
  handlers : List (Nat × Handler) := []
  subscriptions : Table Nat := []
  hooks : List (Hook Step) := []
  runtimes : List (Nat × AgentRuntime) := []
  runtimeIds : Table Nat := []
  store : Store := {}
  /-- Every board writer, in the order of making. -/
  writers : List BoardWriter := []
  writerIds : Table Nat := []
  registries : Table (Registry × Option Nat) := []
  /-- Every coordinator with its writer, in the order of making. -/
  coordinators : List (Coordinator × Option Nat) := []
  coordinatorIds : Table Nat := []
  /-- Watchers with the coordinator they listen to. -/
  watchers : Table (Nat × Watcher) := []
  tickets : Nat := 0
  spawned : Table Nat := []
  results : List (Nat × Answer) := []
  log : List LogEntry := []
  taskCount : Nat := 0
  /-- Tasks that can go on, in the order in which they became so. -/
  ready : List Task := []
  /-- Tasks that wait, in the order of their making. -/
  waiting : List Task := []

abbrev Act := StateM World

/-! ## Time, ids and contexts -/

def readTime : Act Instant :=
  modifyGet fun w => (w.supply.time w.readings, { w with readings := w.readings + 1 })

def newMessageId : Act String :=
  modifyGet fun w => (w.supply.messageId w.messageCount, { w with messageCount := w.messageCount + 1 })

def newSessionId : Act String :=
  modifyGet fun w => (w.supply.sessionId w.sessionCount, { w with sessionCount := w.sessionCount + 1 })

def surroundings : Act Surroundings := do
  let time ← readTime
  let w ← get
  return { time, moment := w.moment, tokens := w.tokens }

def freshContext : Act Context :=
  modifyGet fun w =>
    let (c, tokens) := Context.fresh w.tokens
    (c, { w with tokens })

def contextOf (id : Option String) : Act Context := do
  match id with
  | none => freshContext
  | some id =>
    match (← get).contexts.get? id with
    | some (c, _) => return c
    | none => freshContext

def newMessage (sender recipient topic : String) (payload : Json) : Act Message := do
  return { id := ← newMessageId, sender, recipient, topic, payload, sentAt := ← readTime }

/-- Reads a message; one without an id or a time gets new ones. -/
def readMessage (j : Json) : Act (Except Fault Message) := do
  let id ← newMessageId
  let now ← readTime
  return Decode.ofJson (Message.decode id now) j

/-! ## Tasks -/

def spawn (activity : Activity) (frames : List Frame) : Act Unit :=
  modify fun w =>
    { w with
      ready := w.ready ++ [{ id := w.taskCount, activity, frames }]
      taskCount := w.taskCount + 1 }

def note (source : String) (answer : Answer) : Act Unit :=
  modify fun w => { w with log := w.log ++ [{ source, answer }] }

/-! ## Writers, registries and coordinators -/

def submit (writer : Option Nat) (writes : List BoardWrite) : Act Unit :=
  match writer with
  | none => return
  | some i => modify fun w => { w with writers := w.writers.modify i (·.submit writes) }

def newWriter (board : Blackboard) : Act Nat := do
  let i := (← get).writers.length
  modify fun w => { w with writers := w.writers ++ [{ board }] }
  spawn (.write i) []
  return i

/-- A new ticket, which the writer passes when it has done all before it. -/
def markWriter (i : Nat) : Act Nat := do
  let ticket := (← get).tickets
  modify fun w => { w with tickets := ticket + 1 }
  submit (some i) [.mark ticket]
  return ticket

/-- Keeps a registry after a change; its writes go to its writer. -/
def putRegistry (id : String) (r : Registry) (writer : Option Nat) : Act Unit := do
  submit writer r.writes
  modify fun w => { w with registries := w.registries.insert id ({ r with writes := [] }, writer) }

def hearAll (coordinator : Nat) (events : List SwapEvent) (watchers : Table (Nat × Watcher)) :
    Table (Nat × Watcher) :=
  watchers.map fun (id, source, watcher) =>
    if source = coordinator then (id, source, events.foldl Watcher.hear watcher)
    else (id, source, watcher)

/-- Keeps a coordinator after a change; its writes go to its writer, its events to those who listen. -/
def putCoordinator (i : Nat) (c : Coordinator) (writer : Option Nat) : Act Unit := do
  submit writer c.registry.writes
  let kept := { c with registry := { c.registry with writes := [] }, events := [] }
  modify fun w =>
    { w with
      watchers := hearAll i c.events w.watchers
      coordinators := w.coordinators.set i (kept, writer) }

end Rehearsal
end Handover
