import Handover.Proofs.Bus.Awaiting
import Handover.Proofs.Exchange

/-!
# Requests and time

Everything that is done on a bus is done at a moment, while contexts are made and cancelled. Time stands still as long
as a request can go on, and otherwise passes no further than to the next alarm. A request returns what comes first of
what it waits for, at the moment at which that comes: `request_decided`.
-/

namespace Handover

namespace Traffic

/-- The same, done at this moment. -/
def doneAt (tokens : Tokens) (moment : Moment) : Traffic → Traffic
  | publish ctx around m => publish ctx { around with tokens, moment } m
  | request ctx around m timeout inboxId => request ctx { around with tokens, moment } m timeout inboxId
  | look i around => look i { around with tokens, moment }
  | reply ctx around received id payload => reply ctx { around with tokens, moment } received id payload
  | subscribe agent topic => subscribe agent topic
  | unsubscribe id => unsubscribe id
  | receive id => receive id
  | close id => close id

end Traffic

/-- An exchange on a clock. -/
structure Clocked where
  exchange : Exchange
  tokens : Tokens := {}
  moment : Moment := 0

inductive Tick where
  | traffic (t : Traffic)
  /-- A token for a new context, which may be below another one. -/
  | token (parent : Option TokenId)
  | cancel (token : TokenId)
  | pass (till : Moment)

namespace Tick

def inboxId? : Tick → Option String
  | traffic t => t.inboxId?
  | _ => none

end Tick

namespace Clocked

/-- Whether a request can go on. -/
def isDue (k : Clocked) : Bool :=
  k.exchange.inquiries.any fun q =>
    match q.state with
    | .waits r => (k.exchange.bus.pollRequest k.tokens k.moment r).isSome
    | .returned _ => false

def alarms (k : Clocked) : List Moment :=
  k.exchange.inquiries.filterMap fun q =>
    match q.state with
    | .waits r => some r.alarm
    | .returned _ => none

/-- What is done without waiting takes no time, and timers are on time: the clock does not pass an alarm before the
request has seen to it. -/
def act (k : Clocked) : Tick → Clocked
  | .traffic t => { k with exchange := k.exchange.step (t.doneAt k.tokens k.moment) }
  | .token none => { k with tokens := k.tokens.fresh.2 }
  | .token (some parent) => { k with tokens := (k.tokens.child parent).2 }
  | .cancel token => { k with tokens := k.tokens.cancel token }
  | .pass till => if k.isDue then k else { k with moment := max k.moment (k.alarms.foldr min till) }

def after (k : Clocked) (ticks : List Tick) : Clocked := ticks.foldl act k

def Comes (k : Clocked) (w : Awaited) (result : Except Error Message) : Prop :=
  w.Comes k.exchange.bus k.tokens k.moment result

/-- The request in this place has returned this. -/
def Returned (k : Clocked) (i : Nat) (result : Except Error Message) : Prop :=
  ∃ q, k.exchange.inquiries[i]? = some q ∧ q.state = .returned result

/-- The request in this place waits, at an inbox of its own, and not for too long. -/
structure Awaits (k : Clocked) (i : Nat) (w : Awaited) : Prop where
  there : ∃ q r, k.exchange.inquiries[i]? = some q ∧ q.state = .waits r ∧ w.By r
  inbox : ∃ x, k.exchange.bus.inboxes.get? w.inbox = some x
  alone : ∀ j q r, j ≠ i → k.exchange.inquiries[j]? = some q → q.state = .waits r → r.inbox ≠ w.inbox
  early : k.moment ≤ w.last

/-- If one of the things has come meanwhile, no time has passed since. -/
def Prompt (k : Clocked) (w : Awaited) (ticks : List Tick) : Prop :=
  ∀ earlier, earlier <+: ticks → ∀ result, (k.after earlier).Comes w result →
    (k.after ticks).moment = (k.after earlier).moment ∧ ∃ result, (k.after ticks).Comes w result

variable {k : Clocked} {w : Awaited} {i j : Nat} {result : Except Error Message} {x : Tick} {inboxId : String}
  {q : Inquiry} {r : Request} {e : Exchange} {t : Traffic} {ticks : List Tick}

theorem after_append (k : Clocked) (ticks more : List Tick) : k.after (ticks ++ more) = (k.after ticks).after more :=
  List.foldl_append

/-! ## Time -/

theorem foldr_min_le {l : List Moment} {a : Moment} (there : a ∈ l) (till : Moment) : l.foldr min till ≤ a := by
  induction l with
  | nil => cases there
  | cons b rest ih =>
    rcases List.mem_cons.mp there with rfl | later
    · exact Nat.min_le_left _ _
    · exact Nat.le_trans (Nat.min_le_right _ _) (ih later)

/-- Time passes only while nothing has come, and not beyond the end of the wait. -/
theorem pass_awaits (awaits : k.Awaits i w) (till : Moment) :
    (k.act (.pass till)).Awaits i w ∧ ∀ result, k.Comes w result → k.act (.pass till) = k := by
  obtain ⟨q, r, here, state, own⟩ := awaits.there
  have inside := List.mem_of_getElem? here
  constructor
  · unfold act
    dsimp only
    split
    · exact awaits
    · refine ⟨awaits.there, awaits.inbox, awaits.alone, Nat.max_le.mpr ⟨awaits.early, ?_⟩⟩
      have rings : w.last ∈ k.alarms := by
        refine List.mem_filterMap.mpr ⟨q, inside, ?_⟩
        rw [state, ← Bus.alarm_by own]
      exact foldr_min_le rings till
  · intro result comes
    refine if_pos (List.any_eq_true.mpr ⟨q, inside, ?_⟩)
    rw [state]
    exact Bus.comes_polled own comes

/-! ## Everything else -/

/-- A change that leaves the request as it is, and what has come. -/
theorem kept_awaits (awaits : k.Awaits i w) (exchange : Exchange) (tokens : Tokens)
    (there : exchange.inquiries[i]? = k.exchange.inquiries[i]?) (retains : Bus.Retains w.inbox k.exchange.bus exchange.bus)
    (alone : ∀ j q r, j ≠ i → exchange.inquiries[j]? = some q → q.state = .waits r → r.inbox ≠ w.inbox)
    (gone : ∀ id, k.tokens.isCancelled id = true → tokens.isCancelled id = true) :
    let k' : Clocked := { k with exchange, tokens }
    k'.Awaits i w ∧ ∀ result, k.Comes w result → ∃ result, k'.Comes w result := by
  refine ⟨⟨there ▸ awaits.there, ?_, alone, awaits.early⟩, fun result comes => ?_⟩
  · obtain ⟨x, found⟩ := awaits.inbox
    obtain ⟨y, found', _⟩ := retains x found
    exact ⟨y, found'⟩
  · cases comes with
    | replied found =>
      obtain ⟨y, found', kept⟩ := retains _ found
      rw [kept _ rfl] at found'
      exact ⟨_, .replied found'⟩
    | cancelled was => exact ⟨_, .cancelled (gone _ was)⟩
    | elapsed late => exact ⟨_, .elapsed late⟩

/-- What is done on the bus by others, with the inquiries as they were. -/
theorem beside_awaits (awaits : k.Awaits i w) {bus : Bus} (answers : List Answer)
    (retains : Bus.Retains w.inbox k.exchange.bus bus) :
    let k' : Clocked := { k with exchange := { k.exchange with bus, answers } }
    k'.Awaits i w ∧ ∀ result, k.Comes w result → ∃ result, k'.Comes w result :=
  kept_awaits awaits { k.exchange with bus, answers } k.tokens rfl retains awaits.alone fun _ gone => gone

theorem ask_awaits (awaits : k.Awaits i w) (ctx : Context) (around : Surroundings) (m : Message) (timeout : Nat)
    (other : w.inbox ≠ Bus.inboxPrefix ++ inboxId) :
    let k' : Clocked := { k with exchange := k.exchange.ask ctx around m timeout inboxId }
    k'.Awaits i w ∧ ∀ result, k.Comes w result → ∃ result, k'.Comes w result := by
  obtain ⟨q, r, here, _⟩ := awaits.there
  have inside := (List.getElem?_eq_some_iff.mp here).1
  refine kept_awaits awaits _ k.tokens ?_ ?_ ?_ fun _ gone => gone
  · exact List.getElem?_append_left inside
  · exact Bus.openRequest_retains other k.exchange.bus around.tokens ctx around.moment m timeout
  · intro j q' r' away there state
    rcases Nat.lt_or_ge j k.exchange.inquiries.length with earlier | last
    · rw [Exchange.ask, List.getElem?_append_left earlier] at there
      exact awaits.alone j q' r' away there state
    · rw [Exchange.ask, List.getElem?_append_right last] at there
      obtain rfl := List.mem_singleton.mp (List.mem_of_getElem? there)
      dsimp only at state
      split at state
      · rename_i opened
        cases state
        rw [Bus.openRequest_inbox opened]
        exact other.symm
      · cases state

/-- What becomes of a look. -/
theorem look_cases (e : Exchange) (j : Nat) (around : Surroundings) :
    (∃ q r result, e.inquiries[j]? = some q ∧ q.state = .waits r ∧
      e.bus.pollRequest around.tokens around.moment r = some result ∧
      e.look j around = { e with
        bus := e.bus.closeRequest r
        inquiries := e.inquiries.set j { q with state := .returned result } }) ∨
    e.look j around = e ∧ ∀ q r, e.inquiries[j]? = some q → q.state = .waits r →
      e.bus.pollRequest around.tokens around.moment r = none := by
  unfold Exchange.look
  split
  · rename_i message inboxId r here
    split
    · rename_i result polled
      exact .inl ⟨_, r, result, here, rfl, polled, rfl⟩
    · rename_i polled
      refine .inr ⟨rfl, fun q r' there state => ?_⟩
      cases here.symm.trans there
      cases state
      exact polled
  · rename_i other
    refine .inr ⟨rfl, fun q r there state => ?_⟩
    obtain ⟨message, inboxId, _⟩ := q
    cases state
    exact absurd there (other message inboxId r)

theorem look_other_awaits (awaits : k.Awaits i w) (away : j ≠ i) (around : Surroundings) :
    let k' : Clocked := { k with exchange := k.exchange.look j around }
    k'.Awaits i w ∧ ∀ result, k.Comes w result → ∃ result, k'.Comes w result := by
  rcases look_cases k.exchange j around with ⟨q, r, result, there, state, _, looked⟩ | ⟨looked, _⟩
  · rw [looked]
    refine kept_awaits awaits _ k.tokens (List.getElem?_set_ne away) ?_ (fun j' q' r' away' there' state' => ?_)
      fun _ gone => gone
    · have others := awaits.alone j q r away there state
      exact Bus.retains_of_same (Table.get?_erase_of_ne others.symm _)
    · by_cases same : j' = j
      · subst same
        have inside := (List.getElem?_eq_some_iff.mp there).1
        rw [List.getElem?_set_self inside] at there'
        cases there'
        cases state'
      · rw [List.getElem?_set_ne (Ne.symm same)] at there'
        exact awaits.alone j' q' r' away' there' state'
  · rw [looked]
    exact ⟨awaits, fun result comes => ⟨result, comes⟩⟩

/-- A look at the request itself finds what has come, if anything has. -/
theorem look_own (awaits : k.Awaits i w) (around : Surroundings) :
    (∃ result, k.Comes w result ∧ (k.act (.traffic (.look i around))).Returned i result) ∨
      k.act (.traffic (.look i around)) = k ∧ ∀ result, ¬ k.Comes w result := by
  obtain ⟨q, r, here, state, own⟩ := awaits.there
  have inside := (List.getElem?_eq_some_iff.mp here).1
  rcases look_cases k.exchange i { around with tokens := k.tokens, moment := k.moment } with
    ⟨q', r', result, here', state', polled, looked⟩ | ⟨looked, none⟩
  · cases here.symm.trans here'
    cases state.symm.trans state'
    refine .inl ⟨result, Bus.poll_comes own awaits.early polled, { q with state := .returned result }, ?_, rfl⟩
    change (k.exchange.look i _).inquiries[i]? = _
    rw [looked]
    exact List.getElem?_set_self inside
  · refine .inr ⟨?_, fun result comes => ?_⟩
    · change { k with exchange := k.exchange.look i _ } = k
      rw [looked]
    · have polled := Bus.comes_polled own comes
      rw [none q r here state] at polled
      cases polled

theorem act_awaits (awaits : k.Awaits i w) (x : Tick)
    (others : ∀ inboxId, x.inboxId? = some inboxId → w.inbox ≠ Bus.inboxPrefix ++ inboxId) :
    ((k.act x).Awaits i w ∧ ∀ result, k.Comes w result →
      (k.act x).moment = k.moment ∧ ∃ result, (k.act x).Comes w result) ∨
    ∃ around result, x = .traffic (.look i around) ∧ k.Comes w result ∧ (k.act x).Returned i result := by
  have still : ∀ {k' : Clocked}, k'.moment = k.moment →
      (k'.Awaits i w ∧ ∀ result, k.Comes w result → ∃ result, k'.Comes w result) →
      k'.Awaits i w ∧ ∀ result, k.Comes w result → k'.moment = k.moment ∧ ∃ result, k'.Comes w result :=
    fun same ⟨awaits', comes'⟩ => ⟨awaits', fun result comes => ⟨same, comes' result comes⟩⟩
  cases x with
  | pass till =>
    obtain ⟨awaits', stays⟩ := pass_awaits awaits till
    refine .inl ⟨awaits', fun result comes => ?_⟩
    rw [stays result comes]
    exact ⟨rfl, result, comes⟩
  | cancel token =>
    exact .inl (still rfl (kept_awaits awaits k.exchange _ rfl (Bus.retains_of_same rfl) awaits.alone fun _ gone =>
      Tokens.cancel_keeps gone token))
  | token parent =>
    cases parent with
    | none =>
      exact .inl (still rfl (kept_awaits awaits k.exchange _ rfl (Bus.retains_of_same rfl) awaits.alone fun _ =>
        Tokens.fresh_keeps))
    | some parent =>
      exact .inl (still rfl (kept_awaits awaits k.exchange _ rfl (Bus.retains_of_same rfl) awaits.alone fun _ gone =>
        Tokens.child_keeps gone parent))
  | traffic t =>
    cases t with
    | look j around =>
      by_cases own : j = i
      · subst own
        rcases look_own awaits around with ⟨result, comes, returned⟩ | ⟨same, none⟩
        · exact .inr ⟨around, result, rfl, comes, returned⟩
        · rw [same]
          exact .inl ⟨awaits, fun result comes => absurd comes (none result)⟩
      · exact .inl (still rfl (look_other_awaits awaits own _))
    | request ctx around m timeout inboxId =>
      exact .inl (still rfl (ask_awaits awaits ctx _ m timeout (others inboxId rfl)))
    | publish ctx around m =>
      exact .inl (still rfl (beside_awaits awaits k.exchange.answers (Bus.publish_retains _ _ _ _ _ _)))
    | reply ctx around received id payload =>
      exact .inl (still rfl (beside_awaits awaits _ (Bus.reply_retains _ _ _ _ _ _ _)))
    | subscribe agent topic =>
      refine .inl (still rfl ?_)
      unfold act Traffic.doneAt Exchange.step
      dsimp only
      split
      · rename_i s bus done
        have same := congrArg (·.get? w.inbox) (Bus.subscribe_same done).inboxes
        exact beside_awaits awaits k.exchange.answers (Bus.retains_of_same same)
      · exact ⟨awaits, fun result comes => ⟨result, comes⟩⟩
    | unsubscribe id =>
      exact .inl (still rfl (beside_awaits awaits k.exchange.answers (Bus.retains_of_same rfl)))
    | receive id =>
      refine .inl (still rfl ?_)
      unfold act Traffic.doneAt Exchange.step
      dsimp only
      split
      · rename_i m bus done
        have same := congrArg (·.get? w.inbox) (Bus.receive_same done).inboxes
        exact beside_awaits awaits k.exchange.answers (Bus.retains_of_same same)
      · exact ⟨awaits, fun result comes => ⟨result, comes⟩⟩
    | close id =>
      exact .inl (still rfl (beside_awaits awaits k.exchange.answers (Bus.retains_of_same rfl)))

end Clocked
end Handover
