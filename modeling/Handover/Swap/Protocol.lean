import Handover.Coordinator
import Handover.Message
import Handover.Swap.Handing

/-!
# The swap protocol

A swap captures the state of the old agent, pauses it, registers the new one, makes sure that it answers,
hands it the state, and removes the old one. Between two steps the caller may have given up. A failure
before the old agent is paused changes nothing; a later one takes back the new registration and resumes the
old agent.

`Swap.step` does one thing at a time to the coordinator, so that others may act in between. Where the swap
waits for the bus, `errand` says for what and `answer` goes on.
-/

namespace Handover

inductive SwapStage where
  | capture
  | pause
  | register
  | verify
  | transfer
  | finalize
  deriving DecidableEq, Repr

namespace SwapStage

def text : SwapStage → String
  | capture => "capture_state"
  | pause => "pause_old_agent"
  | register => "register_new_agent"
  | verify => "verify_new_agent"
  | transfer => "transfer_state"
  | finalize => "finalize"

/-- The status that a session takes when it enters the stage. -/
def status? : SwapStage → Option SwapStatus
  | capture => some .capturingState
  | pause => some .pausing
  | verify => some .verifying
  | transfer => some .transferringState
  | register | finalize => none

def next? : SwapStage → Option SwapStage
  | capture => some pause
  | pause => some register
  | register => some verify
  | verify => some transfer
  | transfer => some finalize
  | finalize => none

end SwapStage

inductive SwapPhase where
  /-- Keep the new session and announce it. -/
  | opening
  | entering (stage : SwapStage)
  | working (stage : SwapStage)
  | telling
  /-- Register the new agent, now that its earlier registration is known. -/
  | enrolling
  | asking
  /-- Set the new agent active, now that it has the state. -/
  | activating
  | leaving (stage : SwapStage)
  | undoing
  | reviving
  | resuming
  /-- Close the session and announce how it ended. -/
  | closing
  | finished
  deriving DecidableEq, Repr

inductive Errand where
  /-- Send a command; `budgetMs` asks for the context of the roll-back, which lasts that long from its beginning. -/
  | send (recipient : String) (command : Command) (budgetMs : Option Nat)
  | ask (recipient : String) (command : Command)
  deriving DecidableEq, Repr

structure Swap where
  context : Context
  /-- The old agent as the swap found it. -/
  old : Registration
  /-- The configuration of the swap. -/
  changes : Table Json
  session : Session
  oldPaused : Bool := false
  newRegistered : Bool := false
  /-- What the name of the new agent stood for before. -/
  displaced : Option Registration := none
  error : Option Error := none
  /-- When the swap began to take back what it had done. -/
  backSince : Moment := 0
  phase : SwapPhase := .opening
  deriving Repr

namespace Swap

/-- Starts a swap, if the names make sense and the old agent is there. -/
def begin? (r : Registry) (context : Context) (oldName newName : String) (changes : Table Json)
    (id : String) (now : Instant) : Except Error Swap :=
  if newName = "" then .error (.validation "new agent name required")
  else if newName = oldName then .error (.validation s!"new agent name must differ from {oldName}")
  else match r.agents.get? oldName with
    | none => .error (.notFound s!"old agent not found: {oldName}")
    | some old => .ok { context, old, changes, session := .new id oldName newName now }

def oldName (s : Swap) : String := s.old.name

def newName (s : Swap) : String := s.session.newName

def isOver (s : Swap) : Bool := s.phase == .finished

def resumeBudgetMs : Nat := 2000

/-- What the swap waits for, if it waits for the bus. -/
def errand (s : Swap) : Option Errand :=
  match s.phase with
  | .telling => some (.send s.oldName .pause none)
  | .asking => some (.ask s.newName .ping)
  | .resuming => some (.send s.session.oldName .resume (some resumeBudgetMs))
  | _ => none

/-- The swap fails: what it changed is taken back, if it paused the old agent. -/
def failWith (s : Swap) (e : Error) : Swap :=
  { s with error := some e, phase := if s.oldPaused then .undoing else .closing }

def checkReply (s : Swap) (m : Message) : Except Error Unit := do
  let r ← m.decodePayload Reply.decode
  if !r.isOk then
    throw (.communication s!"agent {s.newName} answered ping with status {r.status}")

/-- Goes on with what the bus gave. Whether a notice to the old agent got through makes no difference. A notice gives
nothing, an ask always gives a reply or an error; the case that it gives nothing is there because both have one type. -/
def answer (s : Swap) (result : Except Error (Option Message)) : Swap :=
  match s.phase with
  | .telling => { s with oldPaused := true, phase := .leaving .pause }
  | .asking =>
    match result with
    | .error e => s.failWith e
    | .ok none => s.failWith (.communication s!"no reply from {s.newName}")
    | .ok (some m) =>
      match s.checkReply m with
      | .ok () => { s with phase := .leaving .verify }
      | .error e => s.failWith e
  | .resuming => { s with phase := .closing }
  | _ => s

/-- Whether the caller gave up. Nothing stops a swap before its first step is recorded. -/
def mayEnter (s : Swap) (around : Surroundings) : SwapStage → Except Error Unit
  | .capture => .ok ()
  | _ => s.context.check around.tokens around.moment

/-- Enters a stage: the session moves to its status and starts its step. -/
def enter (s : Swap) (stage : SwapStage) (around : Surroundings) : Swap :=
  let moved : Except Error Session := do
    s.mayEnter around stage
    match stage.status? with
    | some status => s.session.transition status
    | none => return s.session
  match moved with
  | .error e => s.failWith e
  | .ok session =>
    { s with
      session := (session.addStep stage.text around.time).2
      phase := if stage = .verify then .asking else .working stage }

def orFail {α : Type} (s : Swap) (c : Coordinator) (result : Except Error (α × Registry))
    (next : α → Swap) : Swap × Coordinator :=
  match result with
  | .ok (a, registry) => (next a, { c with registry })
  | .error e => (s.failWith e, c)

def work (s : Swap) (c : Coordinator) (stage : SwapStage) (around : Surroundings) : Swap × Coordinator :=
  match stage with
  | .capture =>
    let entry := captureEntry s.session.id s.newName around.time
    match c.registry.capture s.oldName entry with
    | .ok snapshot =>
      ({ s with session := { s.session with snapshot := some snapshot }, phase := .leaving .capture }, c)
    | .error e =>
      let found := s.old.state.recordHistory entry
      ({ s with session := { s.session with snapshot := some found } }.failWith e, c)
  | .pause => s.orFail c (c.registry.setStatus s.oldName .paused) fun _ => { s with phase := .telling }
  | .register => ({ s with displaced := c.registry.agents.get? s.newName, phase := .enrolling }, c)
  | .verify => (s, c)
  | .transfer =>
    match s.session.snapshot with
    | none => (s.failWith (.internal s!"swap {s.session.id} has no state snapshot"), c)
    | some snapshot =>
      let state := handed snapshot s.changes s.session.id s.session.oldName around.time
      s.orFail c (c.registry.updateState s.newName state) fun _ => { s with phase := .activating }
  | .finalize =>
    ({ s with phase := .leaving .finalize }, { c with registry := (c.registry.unregister s.oldName).2 })

def endWell (s : Swap) (now : Instant) : Swap :=
  match s.session.complete now with
  | .ok session => { s with session, phase := .closing }
  | .error e => s.failWith e

/-- Leaves a stage: its step is completed, kept and announced. Keeping and announcing are one step, here as at the
beginning (`step`) and at the end (`close`). It would make no difference if others came in between: announcing reads
nothing that they change, reaches none but the listeners, and keeps the order of what this swap announces. How the
announcements of several swaps mix is a matter of their turns in any case. -/
def leave (s : Swap) (c : Coordinator) (stage : SwapStage) (around : Surroundings) : Swap × Coordinator :=
  let allowed : Except Error Unit :=
    if stage = .capture then s.context.check around.tokens around.moment else .ok ()
  match allowed with
  | .error e => (s.failWith e, c)
  | .ok () =>
    let session := s.session.completeStep (s.session.steps.length - 1) around.time
    let c := (c.storeSession session).announce (.stepCompleted session.id stage.text)
    let s := { s with session }
    match stage.next? with
    | some next => ({ s with phase := .entering next }, c)
    | none => (s.endWell around.time, c)

def undo (s : Swap) (c : Coordinator) : Coordinator :=
  if !s.newRegistered then c
  else match s.displaced with
    | none => { c with registry := (c.registry.unregister s.newName).2 }
    | some earlier =>
      match c.registry.restore earlier with
      | .ok registry => { c with registry }
      | .error _ => c

/-- The session of a swap that is about to end. -/
def closed (s : Swap) (now : Instant) : Session :=
  match s.error with
  | none => s.session
  | some e => if s.oldPaused then s.session.rollBack e.text now else s.session.fail e.text now

def endEvent (session : Session) : SwapEvent :=
  match session.status with
  | .completed => .completed session.id (session.duration.getD {})
  | .rolledBack => .rolledBack session.id (session.error.getD "")
  | _ => .failed session.id (session.error.getD "")

/-- Closes the session, with one reading of the clock (`Session.finish`), keeps it and announces the end. -/
def close (s : Swap) (c : Coordinator) (now : Instant) : Swap × Coordinator :=
  let session := s.closed now
  ({ s with session, phase := .finished }, (c.storeSession session).announce (endEvent session))

/-- One thing the swap does. Where it waits for the bus, and when it is over, it does nothing. -/
def step (s : Swap) (c : Coordinator) (around : Surroundings) : Swap × Coordinator :=
  match s.phase with
  | .opening =>
    ({ s with phase := .entering .capture },
      (c.storeSession s.session).announce (.started s.session.id s.session.oldName s.session.newName))
  | .entering stage => (s.enter stage around, c)
  | .working stage => s.work c stage around
  | .enrolling =>
    s.orFail c (c.registry.register (successor s.old s.newName s.changes around.time) around.time)
      fun _ => { s with newRegistered := true, phase := .leaving .register }
  | .activating =>
    s.orFail c (c.registry.setStatus s.newName .active) fun _ => { s with phase := .leaving .transfer }
  | .leaving stage => s.leave c stage around
  | .undoing => ({ s with backSince := around.moment, phase := .reviving }, s.undo c)
  | .reviving =>
    match c.registry.setStatus s.session.oldName .active with
    | .ok (_, registry) => ({ s with phase := .resuming }, { c with registry })
    | .error _ => ({ s with phase := .closing }, c)
  | .closing => s.close c around.time
  | .telling | .asking | .resuming | .finished => (s, c)

def result (s : Swap) : Except Error Session :=
  match s.error with
  | none => .ok s.session
  | some e => .error e

end Swap
end Handover
