import Handover.Rehearsal.World

/-!
# How steps are taken

Most steps are done at once and give their answer. Some leave the task waiting, or on a longer way.
-/

namespace Handover
namespace Rehearsal

def done (v : Value) : Activity := .finish (.ok v)

def failed (e : Error) : Activity := .finish (.failed e)

def ofResult {α : Type} (value : α → Value) : Except Error α → Activity
  | .ok a => done (value a)
  | .error e => failed e

def ofUnit : Except Error Unit → Activity := ofResult fun _ => .nothing

def unknown (id : String) : Activity := failed (.other s!"nothing is called {id}")

/-! ## Contexts -/

def keepContext (id : String) (c : Context) (trace : Nat) : Act Unit :=
  modify fun w => { w with contexts := w.contexts.insert id (c, trace) }

def contextInfo (w : World) (c : Context) (timeoutMs : Nat) : ContextInfo where
  cancelled := w.tokens.isCancelled c.token
  remainingMs := (c.remaining w.moment).map wholeMillis
  effectiveMs := wholeMillis (c.effectiveTimeout w.moment (millis timeoutMs))
  check := c.check w.tokens w.moment

def settled : Except String Json → Activity
  | .ok j => done (.json j)
  | .error text => failed (.internal text)

def contextStep : ContextStep → Act Activity
  | .new id timeoutMs => do
    let c ← freshContext
    let now := (← get).moment
    let c := match timeoutMs with
      | some ms => c.deadlineAt (now + millis ms)
      | none => c
    keepContext id c c.token
    return done .nothing
  | .child id parent => do
    let w ← get
    let some (c, trace) := w.contexts.get? parent | return unknown parent
    let (child, tokens) := c.child w.tokens
    set { w with tokens }
    keepContext id child trace
    return done (.sameTrace true)
  | .deadline id source inMs => do
    let w ← get
    let some (c, trace) := w.contexts.get? source | return unknown source
    keepContext id (c.deadlineAt (w.moment + millis inMs)) trace
    return done .nothing
  | .cancel id => do
    let w ← get
    let some (c, _) := w.contexts.get? id | return unknown id
    set { w with tokens := w.tokens.cancel c.token }
    return done .nothing
  | .info id timeoutMs => do
    let w ← get
    let some (c, _) := w.contexts.get? id | return unknown id
    return done (.context (contextInfo w c timeoutMs))
  | .bound id subject afterMs outcome => do
    let w ← get
    let some (c, _) := w.contexts.get? id | return unknown id
    match Bound.start w.tokens c w.moment subject with
    | .error e => return failed e
    | .ok b =>
      match afterMs with
      | none => return settled outcome
      | some ms => return .wait (.bound b (w.moment + millis ms) outcome)

/-! ## The bus -/

/-- Subscribes with a handler; the receive loop is a task of its own. -/
def subscribe (agent topic : String) (handler : Handler) : Act (Except Error Subscription) := do
  let w ← get
  match w.bus.subscribe agent topic with
  | .error e => return .error e
  | .ok (s, bus) =>
    set { w with bus, handlers := (s.id, handler) :: w.handlers }
    spawn (.receive s.id) []
    return .ok s

def publish (c : Context) (m : Message) : Act (Except Error Unit) :=
  modifyGet fun w =>
    let (result, bus) := w.bus.publish w.tokens c w.moment m
    (result, { w with bus })

def publishTimes (c : Context) (m : Message) : Nat → Act (Except Error Unit)
  | 0 => return .ok ()
  | count + 1 => do
    match ← publish c m with
    | .ok () => publishTimes c m count
    | .error e => return .error e

def openRequest (c : Context) (m : Message) (timeout : Nat) : Act (Except Error Request) := do
  let id ← newMessageId
  modifyGet fun w =>
    let (result, bus) := w.bus.openRequest w.tokens c w.moment m timeout id
    (result, { w with bus })

def reply (c : Context) (received : Message) (payload : Json) : Act (Except Error Unit) := do
  let answer := received.replyWith (← newMessageId) (← readTime) payload
  modifyGet fun w =>
    let (result, bus) := w.bus.reply w.tokens c w.moment received answer
    (result, { w with bus })

def busStep (received : Option Message) : BusStep → Act Activity
  | .unsubscribe id => do
    let w ← get
    let some s := w.subscriptions.get? id | return unknown id
    set { w with bus := w.bus.unsubscribe s }
    return done .nothing
  | .subscription id => do
    let w ← get
    match (w.subscriptions.get? id).bind w.bus.subscription? with
    | some s => return done (.subscription s.subject s.active)
    | none => return unknown id
  | .publish context message count => do
    let c ← contextOf context
    match ← readMessage message with
    | .error f => return failed (.json f)
    | .ok m => return ofUnit (← publishTimes c m count)
  | .request context message timeoutMs => do
    let c ← contextOf context
    match ← readMessage message with
    | .error f => return failed (.json f)
    | .ok m =>
      match ← openRequest c m (millis timeoutMs) with
      | .error e => return failed e
      | .ok r => return .wait (.reply r m false)
  | .reply context payload message => do
    let c ← contextOf context
    let about ← match message with
      | some j => readMessage j
      | none =>
        match received with
        | some m => pure (.ok m)
        | none => return failed (.other "no message is being handled")
    match about with
    | .error f => return failed (.json f)
    | .ok m => return ofUnit (← reply c m payload)
  | .received =>
    match received with
    | some m => return done (.message m)
    | none => return failed (.other "no message is being handled")
  | .stats => do return done (.stats (← get).bus.stats)
  | .subscriberCount subject => do return done (.count ((← get).bus.subscriberCount subject))
  | .subjectFor agent topic => do
    let b := (← get).bus
    return done (.address b.subjectPrefix (b.subjectFor agent topic))

def runtimeStep : RuntimeStep → Act Activity
  | .start id name => do
    match ← subscribe name controlTopic .runtime with
    | .error e => return failed e
    | .ok s =>
      modify fun w =>
        { w with
          runtimes := (s.id, { name }) :: w.runtimes
          runtimeIds := w.runtimeIds.insert id s.id }
      return done .nothing
  | .stop id => do
    let w ← get
    let some s := w.runtimeIds.get? id | return unknown id
    set { w with bus := w.bus.unsubscribe s }
    return done .nothing
  | .look id => do
    let w ← get
    match (w.runtimeIds.get? id).bind fun s => w.runtimes.lookup s with
    | some a => return done (.runtime a)
    | none => return unknown id

/-! ## Stores -/

def putStore : Except Error Store → Act Activity
  | .ok store => do
    modify fun w => { w with store }
    return done .nothing
  | .error e => return failed e

def storeStep : StoreStep → Act Activity
  | .refuse calls => do
    modify fun w => { w with store := { w.store with refused := calls } }
    return done .nothing
  | .set key value => do putStore ((← get).store.set key value)
  | .get key => do return ofResult .maybeText ((← get).store.get key)
  | .delete key => do putStore ((← get).store.delete key)
  | .info lead => do
    let s := (← get).store
    return done (.store s.entries.length (s.keys lead))

def orNothing {α : Type} (value : α → Value) : Option α → Value
  | some a => value a
  | none => .nothing

def boardStep (b : Blackboard) : BoardStep → Act Activity
  | .set key value => do putStore (b.set (← get).store key value)
  | .get key => do return ofResult .maybeText (b.get (← get).store key)
  | .delete key => do putStore (b.delete (← get).store key)
  | .setJson key value => do putStore (b.setJson (← get).store key value)
  | .getJson key as => do
    let s := (← get).store
    match as with
    | .anything => return ofResult (orNothing .json) (b.getJson Decode.json s key)
    | .agent => return ofResult (orNothing .agent) (b.getJson Registration.decode s key)
    | .session => return ofResult (orNothing .session) (b.getJson Session.decode s key)

def writerStep (id : String) : WriterStep → Act Activity
  | .new board => do
    let i ← newWriter board
    modify fun w => { w with writerIds := w.writerIds.insert id i }
    return done .nothing
  | .put a => withWriter fun i => do
    submit (some i) [.putAgent a]
    return done .nothing
  | .remove name => withWriter fun i => do
    submit (some i) [.removeAgent name]
    return done .nothing
  | .session s => withWriter fun i => do
    submit (some i) [.putSession s]
    return done .nothing
  | .flush => withWriter fun i => do return .wait (.passed i (← markWriter i))
where
  withWriter (act : Nat → Act Activity) : Act Activity := do
    let some i := (← get).writerIds.get? id | return unknown id
    act i

/-! ## Registries -/

def beatAdvanced (before : Except Error Registration) (after : Registration) : Bool :=
  match before with
  | .ok a => a.lastHeartbeat.before after.lastHeartbeat
  | .error _ => false

/-- Keeps a registry whose agent was changed, and shows the agent. -/
def changed (id : String) (writer : Option Nat) (value : Registration → Value)
    (result : Except Error (Registration × Registry)) : Act Activity := do
  match result with
  | .error e => return failed e
  | .ok (a, r) =>
    putRegistry id r writer
    return done (value a)

def registryAct (id : String) (r : Registry) (writer : Option Nat) : RegistryStep → Act Activity
  | .new _ => return unknown id
  | .register a => do
    match r.register a (← readTime) with
    | .error e => return failed e
    | .ok ((stored, replaced), r) =>
      putRegistry id r writer
      return done (.stored stored replaced)
  | .restore a => do
    match r.restore a with
    | .error e => return failed e
    | .ok r =>
      putRegistry id r writer
      return done .nothing
  | .unregister name => do
    let (a, r) := r.unregister name
    putRegistry id r writer
    return done (.maybeAgent a)
  | .get name => return ofResult .agent (r.get name)
  | .list => return done (.listing r.list)
  | .contains name => return done (.flag (r.contains name))
  | .heartbeat name => do
    let beat := r.heartbeat name (← readTime)
    changed id writer (fun a => .beat a (beatAdvanced (r.get name) a)) beat
  | .updateState name s => changed id writer .agent (r.updateState name s)
  | .setStatus name s => changed id writer .agent (r.setStatus name s)
  | .capture name event details => do
    let entry : HistoryEntry := { timestamp := ← readTime, event }
    return ofResult .state (r.capture name (details.foldl (fun e d => e.withDetail d.1 d.2) entry))
  | .stale maxAgeMs => do return done (.texts (r.stale (millis maxAgeMs) (← readTime)))

def registryStep (id : String) : RegistryStep → Act Activity
  | .new writer => do
    putRegistry id {} (writer.bind (← get).writerIds.get?)
    return done .nothing
  | step => do
    let some (r, writer) := (← get).registries.get? id | return unknown id
    registryAct id r writer step

/-! ## Coordinators -/

/-- Keeps a coordinator after a change that may have been refused. -/
def orKept (i : Nat) (writer : Option Nat) : Except Error Coordinator → Act Activity
  | .error e => return failed e
  | .ok c => do
    putCoordinator i c writer
    return done .nothing

/-- Starts a swap; an id is used up only if the swap gets as far as having a session. -/
def beginSwap (i : Nat) (c : Coordinator) (context : Option String) (old new : String)
    (changes : Table Json) : Act Activity := do
  let ctx ← contextOf context
  let w ← get
  match Swap.begin? c.registry ctx old new changes (w.supply.sessionId w.sessionCount) (← readTime) with
  | .error e => return .finish (.swapFailed e none)
  | .ok s =>
    let _ ← newSessionId
    return .swap i s

def coordinatorAct (i : Nat) (c : Coordinator) (writer : Option Nat) : CoordinatorStep → Act Activity
  | .new .. => return done .nothing
  | .register context a => do
    let ctx ← contextOf context
    orKept i writer (c.register ctx a (← surroundings))
  | .unregister context name => do
    let ctx ← contextOf context
    orKept i writer (c.unregister ctx name (← surroundings))
  | .get name => return ofResult .agent (c.get name)
  | .list brief => return done (if brief then .briefly c.list else .agents c.list)
  | .heartbeat name => do
    match c.heartbeat name (← readTime) with
    | .error e => return failed e
    | .ok (a, after) =>
      putCoordinator i after writer
      return done (.advanced (beatAdvanced (c.get name) a))
  | .updateState name s => orKept i writer (c.updateState name s)
  | .stale => do return done (.texts (c.stale (← readTime)))
  | .swap context old new changes => beginSwap i c context old new changes
  | .session session => return ofResult .session (c.session session)
  | .sessions => return done (.sessions c.sessionList)
  | .flush => do
    match writer with
    | none => return done .nothing
    | some x => return .wait (.passed x (← markWriter x))
  | .recover => do
    let (result, c) := c.recover (← get).store
    putCoordinator i c writer
    return ofResult .count result
  | .watch watcher => do
    modify fun w => { w with watchers := w.watchers.insert watcher (i, {}) }
    return done .nothing

def coordinatorStep (id : String) : CoordinatorStep → Act Activity
  | .new config board => do
    let writer ← match board with
      | some b => if config.blackboard.mirrorEnabled then some <$> newWriter b else pure none
      | none => pure none
    modify fun w =>
      { w with
        coordinatorIds := w.coordinatorIds.insert id w.coordinators.length
        coordinators := w.coordinators ++ [(.ofConfig config board, writer)] }
    return done .nothing
  | step => do
    let w ← get
    let some i := w.coordinatorIds.get? id | return unknown id
    let some (c, writer) := w.coordinators[i]? | return unknown id
    coordinatorAct i c writer step

def eventsStep (id : String) : Act Activity := do
  let w ← get
  let some (source, watcher) := w.watchers.get? id | return unknown id
  let ((missed, events), watcher) := watcher.fetch
  set { w with watchers := w.watchers.insert id (source, watcher) }
  return done (.events missed events)

/-! ## All steps -/

/-- Takes a step, on behalf of the handling of a message if there is one. -/
def start (received : Option Message) : Step → Act Activity
  | .sleep ms => do return .wait (.moment ((← get).moment + millis ms))
  | .spawn id step => do
    let task := (← get).taskCount
    spawn (.run step none) [.spawned task]
    modify fun w => { w with spawned := w.spawned.insert id task }
    return done .nothing
  | .await id => do
    match (← get).spawned.get? id with
    | some task => return .wait (.result task)
    | none => return unknown id
  | .context step => contextStep step
  | .subscribe id agent topic actions => do
    match ← subscribe agent topic (.actions id actions) with
    | .error e => return failed e
    | .ok s =>
      modify fun w => { w with subscriptions := w.subscriptions.insert id s.id }
      return done (.text s.subject)
  | .hooks hooks => do
    modify fun w => { w with hooks }
    return done .nothing
  | .bus step => busStep received step
  | .runtime step => runtimeStep step
  | .store step => storeStep step
  | .board b step => boardStep b step
  | .writer id step => writerStep id step
  | .registry id step => registryStep id step
  | .coordinator id step => coordinatorStep id step
  | .events id => eventsStep id

end Rehearsal
end Handover
