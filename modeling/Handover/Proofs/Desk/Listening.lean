import Handover.Proofs.Crowd.Story
import Handover.Proofs.Desk

/-!
# Listening to a coordinator

A listener reads what the coordinator of a desk announces whenever it gets to it. As long as never more is unread than
is kept for it, it gets all that is announced from the time it came, and so hears of every call what the session tells
that the call returns: `listener_hears_the_session`.
-/

namespace Handover

namespace Watcher
variable {w : Watcher} {said : List SwapEvent}

/-- The listener takes the next event, and leaves the others. -/
def next (w : Watcher) : Option SwapEvent × Watcher := (w.unread.head?, { w with unread := w.unread.tail })

/-- As long as there is room for all of it, nothing is missed. -/
theorem hear_all (room : (w.unread ++ said).length ≤ capacity) :
    said.foldl hear w = { w with unread := w.unread ++ said } := by
  induction said generalizing w with
  | nil => rw [List.foldl_nil, List.append_nil]
  | cons e rest ih =>
    have first : (w.unread ++ [e]).length ≤ capacity := by
      simp only [List.length_append, List.length_cons, List.length_nil] at room ⊢
      omega
    have heard : w.hear e = { w with unread := w.unread ++ [e] } := if_pos first
    rw [List.foldl_cons, heard, ih (by simpa using room)]
    simp

end Watcher

/-! ## What a desk announces -/

namespace Desk
variable {d : Desk} {result : Except Error Coordinator} {orders : List Order}

theorem change_tells (tells : d.crowd.Tells orders) (same : ∀ c, result = .ok c → c.events = d.events) :
    (d.change result).crowd.Tells orders ∧ (d.change result).events = d.events := by
  cases result with
  | error e => exact ⟨tells, rfl⟩
  | ok c => exact ⟨tells.of_same (same c rfl), same c rfl⟩

/-- Only calls announce anything, and each tells its own story. -/
theorem perform_tells (tells : d.crowd.Tells orders) (o : Operation) :
    (d.perform o).crowd.Tells orders ∧ ∃ said, (d.perform o).events = d.events ++ said := by
  have silent {d' : Desk} (told : d'.crowd.Tells orders ∧ d'.events = d.events) :
      d'.crowd.Tells orders ∧ ∃ said, d'.events = d.events ++ said :=
    ⟨told.1, [], told.2.trans (List.append_nil _).symm⟩
  cases o with
  | register ctx a around => exact silent (change_tells tells fun _ done => Coordinator.register_events done)
  | unregister ctx name around => exact silent (change_tells tells fun _ done => Coordinator.unregister_events done)
  | heartbeat name now =>
    refine silent (change_tells tells fun c done => ?_)
    obtain ⟨⟨a, c⟩, heard, rfl⟩ := ok_of_map done
    exact Coordinator.heartbeat_events heard
  | updateState name state => exact silent (change_tells tells fun _ done => Coordinator.updateState_events done)
  | restore a =>
    refine silent (change_tells tells fun c done => ?_)
    obtain ⟨registry, _, rfl⟩ := ok_of_map done
    rfl
  | beat member around bus =>
    obtain ⟨told, grows⟩ := Crowd.goes_tells tells (Crowd.beat_goes (b := { member, around, heard := bus d.sent }))
    exact ⟨told.of_same rfl, grows⟩
  | get | list | stale | session | sessions | flush => exact silent ⟨tells, rfl⟩

theorem act_tells (tells : d.crowd.Tells orders) (x : Occurrence) :
    (d.act x).crowd.Tells orders ∧ ∃ said, (d.act x).events = d.events ++ said := by
  cases x with
  | operation o => exact perform_tells tells o
  | write =>
    have events : d.write.events = d.events := congrArg (·.coordinator.events) d.write_crowd
    refine ⟨?_, [], events.trans (List.append_nil _).symm⟩
    dsimp only [act]
    rwa [write_crowd]
  | store s => exact ⟨tells, [], (List.append_nil _).symm⟩

theorem after_tells (tells : d.crowd.Tells orders) (occurrences : List Occurrence) :
    (d.after occurrences).crowd.Tells orders := by
  induction occurrences generalizing d with
  | nil => exact tells
  | cons x rest ih => exact ih (act_tells tells x).1

theorem opened_tells (distinct : orders.Pairwise fun o p => o.session ≠ p.session) (config : Config)
    (board : Option Blackboard) (store : Store) : (opened orders config board store).crowd.Tells orders :=
  Crowd.gather_tells distinct rfl

end Desk

/-! ## What a listener hears -/

/-- A desk with somebody who listens to what its coordinator announces. -/
structure Audience where
  desk : Desk
  /-- How many events there had been when the listener came. -/
  earlier : Nat
  watcher : Watcher := {}
  /-- What the listener has read. -/
  read : List SwapEvent := []

inductive Scene where
  | occurrence (x : Occurrence)
  /-- The listener reads the next event. -/
  | next
  /-- The listener reads all events that are there. -/
  | fetch

namespace Audience
variable {a : Audience} {orders : List Order} {prior : List SwapEvent} {scenes : List Scene}

/-- A listener comes to the desk. -/
def joining (d : Desk) : Audience where
  desk := d
  earlier := d.events.length

def act (a : Audience) : Scene → Audience
  | .occurrence x =>
    let desk := a.desk.act x
    let said := desk.events.drop a.desk.events.length
    { a with desk, watcher := said.foldl Watcher.hear a.watcher }
  | .next =>
    let (event, watcher) := a.watcher.next
    { a with watcher, read := a.read ++ event.toList }
  | .fetch =>
    let ((_, unread), watcher) := a.watcher.fetch
    { a with watcher, read := a.read ++ unread }

def after (a : Audience) (scenes : List Scene) : Audience := scenes.foldl act a

/-- What the listener has read, and what is there for it to read. -/
def received (a : Audience) : List SwapEvent := a.read ++ a.watcher.unread

/-- How many of the events since it came the listener has not read. -/
def behind (a : Audience) : Nat := a.desk.events.length - a.earlier - a.read.length

/-- The listener is never further behind than it may be. -/
def KeepsUp : Audience → List Scene → Prop
  | a, [] => a.behind ≤ Watcher.capacity
  | a, x :: rest => a.behind ≤ Watcher.capacity ∧ KeepsUp (a.act x) rest

instance : (a : Audience) → (scenes : List Scene) → Decidable (a.KeepsUp scenes)
  | a, [] => inferInstanceAs (Decidable (a.behind ≤ Watcher.capacity))
  | a, x :: rest =>
    have : Decidable (KeepsUp (a.act x) rest) := instDecidableKeepsUp (a.act x) rest
    inferInstanceAs (Decidable (_ ∧ _))

/-- The listener has got all that was announced since it came. -/
structure Attends (orders : List Order) (prior : List SwapEvent) (a : Audience) : Prop where
  tells : a.desk.crowd.Tells orders
  events : a.desk.events = prior ++ a.received
  earlier : a.earlier = prior.length

theorem joining_attends {d : Desk} (tells : d.crowd.Tells orders) : (joining d).Attends orders d.events where
  tells := tells
  events := (List.append_nil _).symm
  earlier := rfl

theorem KeepsUp.now (keepsUp : a.KeepsUp scenes) : a.behind ≤ Watcher.capacity := by
  cases scenes with
  | nil => exact keepsUp
  | cons x rest => exact keepsUp.1

/-- Whatever is announced next, the listener gets it if that does not leave the listener too far behind. -/
theorem act_attends (attends : a.Attends orders prior) (x : Scene) (kept : (a.act x).behind ≤ Watcher.capacity) :
    (a.act x).Attends orders prior := by
  cases x with
  | occurrence x =>
    obtain ⟨told, said, grows⟩ := Desk.act_tells attends.tells x
    have heard : (a.desk.act x).events.drop a.desk.events.length = said := by rw [grows, List.drop_left]
    have room : (a.watcher.unread ++ said).length ≤ Watcher.capacity := by
      have events := attends.events
      simp only [act, behind, grows, events, attends.earlier, received, List.length_append] at kept ⊢
      omega
    refine ⟨told, ?_, attends.earlier⟩
    have all : (a.act (.occurrence x)).received = a.received ++ said := by
      simp only [act, heard, Watcher.hear_all room, received, List.append_assoc]
    rw [all, ← List.append_assoc, ← attends.events]
    exact grows
  | next =>
    refine ⟨attends.tells, ?_, attends.earlier⟩
    have all : (a.act .next).received = a.received := by
      simp only [act, received, Watcher.next]
      cases a.watcher.unread <;> simp
    rw [all]
    exact attends.events
  | fetch =>
    refine ⟨attends.tells, ?_, attends.earlier⟩
    have all : (a.act .fetch).received = a.received := List.append_nil _
    rw [all]
    exact attends.events

theorem after_attends (attends : a.Attends orders prior) (keepsUp : a.KeepsUp scenes) :
    (a.after scenes).Attends orders prior := by
  induction scenes generalizing a with
  | nil => exact attends
  | cons x rest ih => exact ih (act_attends attends x keepsUp.2.now) keepsUp.2

/-- A listener that comes before a swap starts, and is never too far behind, hears of it what the session tells that the
call returns. Nothing is announced at the beats of a call that is refused. -/
theorem listener_hears_the_session (orders : List Order) (config : Config) (board : Option Blackboard) (store : Store)
    (distinct : orders.Pairwise fun o p => o.session ≠ p.session) (before : List Occurrence) :
    let d := (Desk.opened orders config board store).after before
    (∀ scenes i o outcome, orders[i]? = some o → ¬ d.crowd.Started o.session → (joining d).KeepsUp scenes →
      ((joining d).after scenes).desk.crowd.outcome? i = some outcome →
      outcome.HeardAs o (((joining d).after scenes).received.filter (·.session = o.session))) ∧
    ∀ i around bus e, (d.perform (.beat i around bus)).crowd.outcome? i = some (.failed e none) →
      (d.perform (.beat i around bus)).events = d.events := by
  intro d
  have tells := Desk.after_tells (Desk.opened_tells distinct config board store) before
  refine ⟨fun scenes i o outcome given early keepsUp ended => ?_, fun i around bus e refused => ?_⟩
  · have attends := after_attends (joining_attends tells) keepsUp
    have told := attends.tells.returned given ended
    have events : ((joining d).after scenes).desk.crowd.coordinator.events =
        d.events ++ ((joining d).after scenes).received := attends.events
    have unheard : d.events.filter (·.session = o.session) = [] := tells.unstarted given early
    rwa [events, List.filter_append, unheard, List.nil_append] at told
  · let beat : Beat := { member := i, around, heard := bus d.sent }
    have refused : (d.crowd.beat beat).outcome? beat.member = some (.failed e none) := refused
    have same : (d.crowd.beat beat).coordinator = d.crowd.coordinator := Crowd.refused_silent Crowd.beat_goes refused
    have events : (d.crowd.beat beat).coordinator.events = d.events := congrArg Coordinator.events same
    exact events

end Audience

namespace Sample

def clerk : Registration := .new "clerk" "worker" ⟨0, 0⟩

def relief : Order := { order with oldName := "clerk", newName := "scribe", session := "swap-2" }

/-- A call that is refused. -/
def nameless : Order := { order with newName := "", session := "swap-3" }

def arrivals : List Occurrence :=
  [.operation (.register order.context elder { time := ⟨1, 0⟩ }),
    .operation (.register order.context clerk { time := ⟨1, 0⟩ })]

/-- The desk when the agents are there and no call has been placed. -/
def desk : Desk := (Desk.opened [order, relief, nameless] {} none {}).after arrivals

def played (member : Nat) (heard : Except Error (Option Message)) : Scene :=
  .occurrence (.operation (.beat member { time := ⟨2, 0⟩ } fun _ => heard))

/-- The calls take turns. The first one gets a reply and the second one does not. The listener reads an event now and
then. -/
def evening : List Scene :=
  (List.replicate 27 [played 0 (.ok (some alive)), played 1 unanswered, played 2 unanswered, .next]).flatten

def listener : Audience := (Audience.joining desk).after evening

theorem evening_keepsUp : (Audience.joining desk).KeepsUp evening := by decide +kernel

theorem desk_unstarted (id : String) : ¬ desk.crowd.Started id := by
  rintro ⟨i, m, s, ⟨there, begun⟩, _⟩
  have fresh : desk.crowd.members.all (·.swap.isNone) = true := rfl
  have unplaced := List.all_eq_true.mp fresh m (List.mem_of_getElem? there)
  rw [begun] at unplaced
  cases unplaced

end Sample

namespace Audience

set_option maxRecDepth 2000 in
theorem listener_hears_two_sessions :
    ∃ record e record', Sample.listener.desk.crowd.outcome? 0 = some (.completed record) ∧
      Sample.listener.desk.crowd.outcome? 1 = some (.failed e (some record')) ∧
      (Outcome.completed record).HeardAs Sample.order (Sample.listener.received.filter (·.session = "swap")) ∧
      (Outcome.failed e (some record')).HeardAs Sample.relief
        (Sample.listener.received.filter (·.session = "swap-2")) ∧
      (Sample.desk.perform (.beat 2 { time := ⟨2, 0⟩ } fun _ => .ok none)).events = Sample.desk.events := by
  have distinct : [Sample.order, Sample.relief, Sample.nameless].Pairwise fun o p => o.session ≠ p.session := by
    simp [Sample.order, Sample.relief, Sample.nameless]
  obtain ⟨heard, silent⟩ := listener_hears_the_session _ {} none {} distinct Sample.arrivals
  obtain ⟨record, completed⟩ : ∃ record, Sample.listener.desk.crowd.outcome? 0 = some (.completed record) := ⟨_, rfl⟩
  obtain ⟨e, record', failed⟩ : ∃ e record, Sample.listener.desk.crowd.outcome? 1 = some (.failed e (some record)) :=
    ⟨_, _, rfl⟩
  refine ⟨record, e, record', completed, failed, ?_, ?_, ?_⟩
  · exact heard _ 0 _ _ rfl (Sample.desk_unstarted _) Sample.evening_keepsUp completed
  · exact heard _ 1 _ _ rfl (Sample.desk_unstarted _) Sample.evening_keepsUp failed
  · exact silent 2 _ _ _ rfl

end Audience
end Handover
