import Handover.Agent.Runtime
import Handover.Bus.Request
import Handover.Coordinator

/-!
# Steps of a rehearsal

A rehearsal runs agents, coordinators and stores together under a clock of its own. Its script is a list of
steps; each step has an answer. Objects are named by the step that makes them.
-/

namespace Handover
namespace Rehearsal

/-- Where a hook acts on the calls of coordinators and agent runtimes to the bus. -/
inductive HookPoint where
  | publish
  | request
  | reply
  /-- A request has ended and its result is about to be given back. -/
  | requested
  deriving DecidableEq, Repr

namespace HookPoint

def text : HookPoint → String
  | publish => "publish"
  | request => "request"
  | reply => "reply"
  | requested => "requested"

end HookPoint

/-- What a hook does to a call: makes it fail, or runs a step first. -/
inductive HookEffect (σ : Type) where
  | fail (text : String)
  | run (step : σ)

/-- A hook acts on messages with a command, of one recipient or of any. -/
structure Hook (σ : Type) where
  point : HookPoint
  command : String
  recipient : Option String := none
  effect : HookEffect σ

/-- A step taken for each message received, or only for those with a command. -/
structure Action (σ : Type) where
  only : Option String := none
  step : σ

inductive ContextStep where
  | new (id : String) (timeoutMs : Option Nat)
  | child (id parent : String)
  | deadline (id source : String) (inMs : Nat)
  | cancel (id : String)
  | info (id : String) (timeoutMs : Nat)
  /-- A bounded wait of `afterMs`, or of nothing at all, that then has an outcome. -/
  | bound (id subject : String) (afterMs : Option Nat) (outcome : Except String Json)

inductive BusStep where
  | unsubscribe (id : String)
  | subscription (id : String)
  | publish (context : Option String) (message : Json) (count : Nat)
  | request (context : Option String) (message : Json) (timeoutMs : Nat)
  | reply (context : Option String) (payload : Json) (message : Option Json)
  | received
  | stats
  | subscriberCount (subject : String)
  | subjectFor (agent topic : String)

inductive RuntimeStep where
  | start (id name : String)
  | stop (id : String)
  | look (id : String)

inductive StoreStep where
  | refuse (calls : List (StoreCall × String))
  | set (key value : String)
  | get (key : String)
  | delete (key : String)
  | info (lead : String)

inductive Reading where
  | anything
  | agent
  | session
  deriving DecidableEq, Repr

inductive BoardStep where
  | set (key value : String)
  | get (key : String)
  | delete (key : String)
  | setJson (key : String) (value : Json)
  | getJson (key : String) (as : Reading)

inductive WriterStep where
  | new (board : Blackboard)
  | put (a : Registration)
  | remove (name : String)
  | session (s : Session)
  | flush

inductive RegistryStep where
  | new (writer : Option String)
  | register (a : Registration)
  | restore (a : Registration)
  | unregister (name : String)
  | get (name : String)
  | list
  | contains (name : String)
  | heartbeat (name : String)
  | updateState (name : String) (s : AgentState)
  | setStatus (name : String) (s : AgentStatus)
  | capture (name event : String) (details : Table Json)
  | stale (maxAgeMs : Nat)

inductive CoordinatorStep where
  | new (config : Config) (board : Option Blackboard)
  | register (context : Option String) (a : Registration)
  | unregister (context : Option String) (name : String)
  | get (name : String)
  | list (brief : Bool)
  | heartbeat (name : String)
  | updateState (name : String) (s : AgentState)
  | stale
  | swap (context : Option String) (old new : String) (changes : Table Json)
  | session (id : String)
  | sessions
  | flush
  | recover
  | watch (id : String)

inductive Step where
  | sleep (ms : Nat)
  | spawn (id : String) (step : Step)
  | await (id : String)
  | context (step : ContextStep)
  | subscribe (id agent topic : String) (actions : List (Action Step))
  | hooks (hooks : List (Hook Step))
  | bus (step : BusStep)
  | runtime (step : RuntimeStep)
  | store (step : StoreStep)
  | board (board : Blackboard) (step : BoardStep)
  | writer (id : String) (step : WriterStep)
  | registry (id : String) (step : RegistryStep)
  | coordinator (id : String) (step : CoordinatorStep)
  | events (id : String)

structure ContextInfo where
  cancelled : Bool
  remainingMs : Option Nat
  effectiveMs : Nat
  check : Except Error Unit

mutual

inductive Value where
  | nothing
  | flag (b : Bool)
  | count (n : Nat)
  | text (s : String)
  | maybeText (s : Option String)
  | texts (l : List String)
  | json (j : Json)
  | answered (a : Answer)
  | sameTrace (b : Bool)
  | context (i : ContextInfo)
  | message (m : Message)
  | subscription (subject : String) (active : Bool)
  | stats (s : BusStats)
  | address (lead subject : String)
  | runtime (a : AgentRuntime)
  | store (size : Nat) (keys : List String)
  | agent (a : Registration)
  | maybeAgent (a : Option Registration)
  | agents (l : List Registration)
  | briefly (l : List Registration)
  | listing (l : List Registration)
  | stored (a : Registration) (replaced : Option Registration)
  | beat (a : Registration) (advanced : Bool)
  | advanced (b : Bool)
  | state (s : AgentState)
  | session (s : Session)
  | sessions (l : List Session)
  | events (missed : Nat) (l : List SwapEvent)

inductive Answer where
  | ok (v : Value)
  | failed (e : Error)
  /-- A swap failed; the session is there if it was started. -/
  | swapFailed (e : Error) (session : Option Session)

end

instance : Inhabited Answer := ⟨.ok .nothing⟩

structure LogEntry where
  source : String
  answer : Answer

structure Report where
  answer : Answer
  /-- Whole milliseconds that the step took. -/
  millis : Nat := 0
  log : List LogEntry := []

end Rehearsal
end Handover
