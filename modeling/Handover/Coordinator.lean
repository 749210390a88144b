import Handover.Config.Basic
import Handover.Context
import Handover.Registry

/-!
# The coordinator

The registry, the record of the swap sessions, and what is announced about them. Of the sessions that have
ended only the latest are kept.
-/

namespace Handover

/-- What a step of an operation sees of the world: the time of day, the moment and the cancellations. -/
structure Surroundings where
  time : Instant
  moment : Moment := 0
  tokens : Tokens := {}
  deriving Repr

structure Coordinator where
  registry : Registry := {}
  sessions : Table Session := []
  events : List SwapEvent := []
  board : Option Blackboard := none
  pingTimeoutMs : Nat := 5000
  heartbeatTimeoutMs : Nat := 30000
  maxSessions : Nat := 256
  deriving Repr

namespace Coordinator

def ofConfig (c : Config) (board : Option Blackboard) : Coordinator :=
  { board
    pingTimeoutMs := c.swap.pingTimeoutMs
    heartbeatTimeoutMs := c.registry.heartbeatTimeoutMs
    maxSessions := max 1 c.swap.maxSessionsRetained }

def register (c : Coordinator) (ctx : Context) (a : Registration) (around : Surroundings) :
    Except Error Coordinator := do
  ctx.check around.tokens around.moment
  let (_, registry) ← c.registry.register a around.time
  return { c with registry }

/-- Removes an agent, unless the caller gave up. Unknown names are no error. -/
def unregister (c : Coordinator) (ctx : Context) (name : String) (around : Surroundings) :
    Except Error Coordinator := do
  ctx.check around.tokens around.moment
  return { c with registry := (c.registry.unregister name).2 }

def get (c : Coordinator) (name : String) : Except Error Registration := c.registry.get name

def list (c : Coordinator) : List Registration := c.registry.list

def heartbeat (c : Coordinator) (name : String) (now : Instant) :
    Except Error (Registration × Coordinator) := do
  let (a, registry) ← c.registry.heartbeat name now
  return (a, { c with registry })

def updateState (c : Coordinator) (name : String) (s : AgentState) : Except Error Coordinator := do
  let (_, registry) ← c.registry.updateState name s
  return { c with registry }

def stale (c : Coordinator) (now : Instant) : List String :=
  c.registry.stale (millis c.heartbeatTimeoutMs) now

/-! ## Sessions -/

def session (c : Coordinator) (id : String) : Except Error Session :=
  match c.sessions.get? id with
  | some s => .ok s
  | none => .error (.sessionMissing id)

def startedBy (a b : Session) : Bool := !b.startedAt.before a.startedAt

def sessionList (c : Coordinator) : List Session := c.sessions.values.mergeSort startedBy

/-- Whether `a` is dropped before `b`: the older one, and of two as old the one with the lesser id. -/
def dropsBefore (a b : Session) : Bool :=
  a.startedAt.before b.startedAt || (!b.startedAt.before a.startedAt && decide (a.id ≤ b.id))

/-- Drops the oldest ended sessions until at most `most` are left, if there are enough of them. -/
def prune (most : Nat) (sessions : Table Session) : Table Session :=
  let ended := (sessions.values.filter Session.isTerminal).mergeSort dropsBefore
  (ended.take (sessions.length - most)).foldl (fun t s => t.erase s.id) sessions

def storeSession (c : Coordinator) (s : Session) : Coordinator :=
  { c with
    sessions := prune c.maxSessions (c.sessions.insert s.id s)
    registry := c.registry.note (.putSession s) }

def announce (c : Coordinator) (e : SwapEvent) : Coordinator := { c with events := c.events ++ [e] }

/-! ## Recovery -/

/-- Brings back the agents of a list of names that are on the board and not in the registry. Entries
that cannot be read are passed over. -/
def recoverNames (board : Blackboard) (s : Store) :
    List String → (count : Nat) → Coordinator → Except Error Nat × Coordinator
  | [], count, c => (.ok count, c)
  | name :: rest, count, c =>
    if c.registry.contains name then recoverNames board s rest count c
    else
      match board.getJson Registration.decode s (Blackboard.agentKey name) with
      | .ok (some a) =>
        match c.registry.restore a with
        | .ok registry => recoverNames board s rest (count + 1) { c with registry }
        | .error e => (.error e, c)
      | .ok none | .error _ => recoverNames board s rest count c

/-- Brings back the agents that an earlier coordinator left on the board, and says how many. -/
def recover (c : Coordinator) (s : Store) : Except Error Nat × Coordinator :=
  match c.board with
  | none => (.error (.validation "no blackboard configured"), c)
  | some board =>
    match board.getJson (Decode.list Decode.text) s Blackboard.indexKey with
    | .error e => (.error e, c)
    | .ok names => recoverNames board s (names.getD []) 0 c

end Coordinator

/-- A listener to what a coordinator announces. What it does not fetch in time it misses. -/
structure Watcher where
  missed : Nat := 0
  unread : List SwapEvent := []
  deriving DecidableEq, Repr

namespace Watcher

def capacity : Nat := 64

def hear (w : Watcher) (e : SwapEvent) : Watcher :=
  let unread := w.unread ++ [e]
  if unread.length ≤ capacity then { w with unread }
  else { missed := w.missed + (unread.length - capacity), unread := unread.drop (unread.length - capacity) }

/-- How many events were missed since the last look, and those that were not. -/
def fetch (w : Watcher) : (Nat × List SwapEvent) × Watcher := ((w.missed, w.unread), {})

end Watcher
end Handover
