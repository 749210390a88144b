import Handover.Rehearsal.Acts

/-!
# Running a rehearsal

Tasks go on in the order in which they became able to. The script goes on when it can and nothing else
can, or when the others had their turns. Time stands still while anything can go on, and then moves
straight to the next moment somebody waits for.
-/

namespace Handover
namespace Rehearsal

/-! ## One task -/

def Wait.isOver (w : World) : Wait → Bool
  | .moment t => t ≤ w.moment
  | .result task => (w.results.lookup task).isSome
  | .bound b due _ => due ≤ w.moment || (b.poll w.tokens w.moment).isSome
  | .reply r _ _ => (w.bus.pollRequest w.tokens w.moment r).isSome
  | .passed writer ticket =>
    match w.writers[writer]? with
    | some x => x.passed.contains ticket
    | none => true
  | .queue subscription =>
    match w.bus.subscription? subscription with
    | some s => !s.active || !s.queue.isEmpty
    | none => true
  | .writes writer =>
    match w.writers[writer]? with
    | some x => x.index.isNone || x.indexDue || !x.queue.isEmpty
    | none => false

/-- When a wait is over if nothing else happens. -/
def Wait.alarm? : Wait → Option Moment
  | .moment t => some t
  | .bound b due _ => some (match b.deadline with
    | some d => min d due
    | none => due)
  | .reply r _ _ => some (match r.bound.deadline with
    | some d => min d r.limit
    | none => r.limit)
  | .result _ | .passed .. | .queue _ | .writes _ => none

def hooksAt (point : HookPoint) (m : Message) : Act (List (Hook Step)) := do
  let applies (h : Hook Step) : Bool :=
    h.point == point && (m.payload.get? "command").bind Json.text? == some h.command
      && h.recipient.all (· == m.recipient)
  return (← get).hooks.filter applies

/-- Starts a call to the bus, as coordinators and runtimes see it. -/
def callBus (c : BusCall) : Act Activity := do return .call c (← hooksAt c.point c.about)

def goOn (wait : Wait) : Act Activity := do
  let w ← get
  match wait with
  | .moment _ | .passed .. => return done .nothing
  | .result task =>
    match w.results.lookup task with
    | some a => return done (.answered a)
    | none => return .wait wait
  | .bound b due outcome =>
    if due ≤ w.moment then return settled outcome
    else match b.poll w.tokens w.moment with
      | some e => return failed e
      | none => return .wait wait
  | .reply r m hooked =>
    match w.bus.pollRequest w.tokens w.moment r with
    | none => return .wait wait
    | some result =>
      set { w with bus := w.bus.closeRequest r }
      if hooked then return .requested m result (← hooksAt .requested m)
      else return ofResult .message result
  | .queue subscription => return .receive subscription
  | .writes writer => return .write writer

def errandCall (s : Swap) (errand : Errand) (pingTimeoutMs : Nat) : Act BusCall := do
  match errand with
  | .send recipient command budgetMs =>
    let c ← match budgetMs with
      | none => pure s.context
      | some ms => do
        let c ← freshContext
        pure (c.deadlineAt (s.backSince + millis ms))
    return .publish c (← newMessage coordinatorName recipient controlTopic command.encode)
  | .ask recipient command =>
    return .request s.context (← newMessage coordinatorName recipient controlTopic command.encode)
      (millis pingTimeoutMs)

def swapStep (i : Nat) (s : Swap) : Act (Activity × List Frame) := do
  let some (c, writer) := (← get).coordinators[i]? | return (.stop, [])
  if s.isOver then
    match s.error with
    | none => return (done (.session s.session), [])
    | some e => return (.finish (.swapFailed e (some s.session)), [])
  else match s.errand with
    | some errand => return (← callBus (← errandCall s errand c.pingTimeoutMs), [.swap i s])
    | none =>
      let (s, c) := s.step c (← surroundings)
      putCoordinator i c writer
      return (.swap i s, [])

def perform : BusCall → Act Activity
  | .publish c m => do return .give ((← publish c m).map fun _ => none)
  | .reply c received payload => do return .give ((← reply c received payload).map fun _ => none)
  | .request c m timeout => do
    match ← openRequest c m timeout with
    | .error e => return .requested m (.error e) (← hooksAt .requested m)
    | .ok r => return .wait (.reply r m true)

def answerTo (a : Answer) : Frame → Act Activity
  | .spawned task => do
    modify fun w => { w with results := (task, a) :: w.results }
    return .stop
  | .script => return .finish a
  | .handler source received rest => do
    note source a
    return .handle source received rest
  | .before c rest => do
    note c.point.text a
    return .call c rest
  | .after m result rest => do
    note HookPoint.requested.text a
    return .requested m result rest
  | .swap .. | .ping _ => return .stop

def changeRuntime (subscription : Nat) (f : AgentRuntime → AgentRuntime) (w : World) : World :=
  { w with runtimes := w.runtimes.map fun (s, a) => (s, if s = subscription then f a else a) }

def giveTo (result : BusResult) : Frame → Act Activity
  | .swap i s => return .swap i (s.answer result)
  | .ping subscription => do
    modify (changeRuntime subscription (·.answered (result.map fun _ => ())))
    return .stop
  | _ => return .stop

/-- A receive loop starts the handling of each message of its queue, until it is told to end. -/
def receiveStep (subscription : Nat) : Act Activity := do
  let w ← get
  let some s := w.bus.subscription? subscription | return .stop
  if !s.active then
    set { w with bus := w.bus.close subscription }
    return .stop
  match w.bus.receive subscription with
  | none => return .wait (.queue subscription)
  | some (m, bus) =>
    set { w with bus }
    match w.handlers.find? (·.1 = subscription) with
    | some (_, .actions source actions) => spawn (.handle source m actions) []
    | some (_, .runtime) => spawn (.serve subscription m) []
    | none => pure ()
    return .receive subscription

def writeStep (i : Nat) : Act Activity := do
  let w ← get
  let some x := w.writers[i]? | return .stop
  let (x, store) := x.catchUp w.store
  set { w with store, writers := w.writers.set i x }
  return .wait (.writes i)

/-- A runtime takes a message; a ping is answered through the bus. -/
def serveStep (subscription : Nat) (m : Message) : Act (Activity × List Frame) := do
  let some a := (← get).runtimes.lookup subscription | return (.stop, [])
  let (a, wanted) := a.receive m
  modify (changeRuntime subscription fun _ => a)
  if wanted then
    let c ← freshContext
    return (← callBus (.reply c m Reply.ok.encode), [.ping subscription])
  else return (.stop, [])

/-- What an activity does next, and the frames that wait for it. -/
def Activity.next : Activity → Act (Activity × List Frame)
  | .run step received => do return (← start received step, [])
  | .finish a => return (.finish a, [])
  | .give r => return (.give r, [])
  | .stop => return (.stop, [])
  | .wait w => do return (← goOn w, [])
  | .handle source received actions =>
    let wanted (a : Action Step) : Bool :=
      a.only.all fun c => (received.payload.get? "command").bind Json.text? == some c
    match actions.dropWhile (!wanted ·) with
    | [] => return (.stop, [])
    | a :: rest => return (.run a.step (some received), [.handler source received rest])
  | .serve subscription m => serveStep subscription m
  | .receive subscription => do return (← receiveStep subscription, [])
  | .write i => do return (← writeStep i, [])
  | .swap i s => swapStep i s
  | .call c [] => do return (← perform c, [])
  | .call c (h :: rest) =>
    match h.effect with
    | .fail text => return (.give (.error (.communication text)), [])
    | .run step => return (.run step none, [.before c rest])
  | .requested _ result [] => return (.give (result.map some), [])
  | .requested m result (h :: rest) =>
    match h.effect with
    | .fail text => return (.give (.error (.communication text)), [])
    | .run step => return (.run step none, [.after m result rest])

def Task.step (t : Task) : Act Task := do
  match t.activity, t.frames with
  | .finish _, [] | .give _, [] => return { t with activity := .stop }
  | .finish a, f :: frames => return { t with activity := ← answerTo a f, frames }
  | .give r, f :: frames => return { t with activity := ← giveTo r f, frames }
  | activity, frames =>
    let (activity, more) ← activity.next
    return { t with activity, frames := more ++ frames }

/-! ## All tasks -/

def Task.canGoOn (w : World) (t : Task) : Bool :=
  match t.activity with
  | .wait wait => wait.isOver w
  | _ => true

/-- Moves the tasks whose wait is over behind those that can go on already. -/
def wake : Act Unit := modify fun w =>
  let (free, waiting) := w.waiting.partition (Task.canGoOn w)
  { w with ready := w.ready ++ free, waiting }

/-- Puts a task among those that wait, in the order of making. -/
def insertTask (t : Task) : List Task → List Task
  | [] => [t]
  | u :: rest => if t.id < u.id then t :: u :: rest else u :: insertTask t rest

/-- Whether a script has come to the answer of its step. -/
def Task.answer? (t : Task) : Option Answer :=
  match t.activity, t.frames with
  | .finish a, [] => some a
  | _, _ => none

/-- Lets a task go on for as long as it can. What it does may wake others. -/
def runTask : Nat → Task → Act Task
  | 0, t => return t
  | fuel + 1, t => do
    if t.answer?.isSome then return t
    match t.activity with
    | .stop => return t
    | .wait wait =>
      if wait.isOver (← get) then
        let t ← t.step
        wake
        runTask fuel t
      else return t
    | _ =>
      let t ← t.step
      wake
      runTask fuel t

def runReady (fuel : Nat) : Act Unit := do
  match (← get).ready with
  | [] => return
  | t :: rest =>
    modify fun w => { w with ready := rest }
    let t ← runTask fuel t
    match t.activity with
    | .wait _ => modify fun w => { w with waiting := insertTask t w.waiting }
    | _ => return

/-- Lets tasks go on until none can without time passing. -/
def settle : Nat → Act Unit
  | 0 => return
  | fuel + 1 => do
    if (← get).ready.isEmpty then return
    runReady fuel
    settle fuel

def nextAlarm (w : World) (script : Task) : Option Moment :=
  let alarms := (script :: w.waiting).filterMap fun t =>
    match t.activity with
    | .wait wait => wait.alarm?
    | _ => none
  alarms.min?

/-- Turns that other tasks have at most before the script has one. -/
def turnLimit : Nat := 61

def runScript : (fuel turns : Nat) → Task → Act Answer
  | 0, _, _ => return .failed (.other "the rehearsal takes too long")
  | fuel + 1, turns, script => do
    let w ← get
    if script.canGoOn w && (turns = 0 || w.ready.isEmpty) then
      let script ← runTask fuel script
      match script.answer? with
      | some a => return a
      | none => runScript fuel turnLimit script
    else if !w.ready.isEmpty then
      runReady fuel
      runScript fuel (if turns = 0 then turnLimit else turns - 1) script
    else match nextAlarm w script with
      | some t =>
        modify fun w => { w with moment := max w.moment t }
        wake
        runScript fuel turnLimit script
      | none => return .failed (.other "nothing is left to wait for")

/-- A step of the script, after which the others may go on or not. -/
structure Cue where
  step : Step
  settle : Bool := true

def runStep (fuel : Nat) (cue : Cue) : Act Report := do
  let began := (← get).moment
  let answer ← runScript fuel 0 { id := 0, activity := .run cue.step none }
  let ended := (← get).moment
  if cue.settle then settle fuel
  let log := (← get).log
  modify fun w => { w with log := [] }
  return { answer, millis := wholeMillis (ended - began), log }

def runAll (fuel : Nat) : List Cue → Act (List Report)
  | [] => return []
  | cue :: rest => do
    let r ← runStep fuel cue
    return r :: (← runAll fuel rest)

end Rehearsal

/-- Runs a script on a bus of its own; `fuel` bounds what any one step may set off. -/
def rehearse (fuel : Nat) (supply : Rehearsal.Supply) (bus : BusConfig) (script : List Rehearsal.Cue) :
    List Rehearsal.Report :=
  ((Rehearsal.runAll fuel script).run { supply, bus := .ofConfig bus, taskCount := 1 }).1

end Handover
