import Handover.Proofs.Bus.Delivery
import Handover.Proofs.Exchange.Correlation

/-!
# An inbox is filled once

An inbox is opened by the request that draws it and by nothing else, so one reply goes into it at most, and stays there
until the request looks. That takes no more than that no two requests draw the same inbox, whatever subjects other
messages go to: `step_single`.
-/

namespace Handover
namespace Bus

/-- The inbox is as it was, or has got the reply that it waited for. -/
inductive Settles (inbox : String) (b b' : Bus) : Prop where
  | same (same : b'.inboxes.get? inbox = b.inboxes.get? inbox)
  | filled (waits : b.inboxes.get? inbox = some none) (there : b'.inboxes.get? inbox = some (some m))

variable {b b' b'' : Bus} {inbox inboxId : String} {ts : Tokens} {c : Context} {now : Moment} {m : Message}

theorem Settles.trans (first : Settles inbox b b') (second : Settles inbox b' b'') : Settles inbox b b'' := by
  cases second with
  | same same' =>
    cases first with
    | same same => exact .same (same'.trans same)
    | filled waits there => exact .filled waits (same'.trans there)
  | filled waits' there' =>
    cases first with
    | same same => exact .filled (same.symm.trans waits') there'
    | filled waits there => cases there.symm.trans waits'

theorem Settles.contains (settles : Settles inbox b b') :
    b'.inboxes.contains inbox = b.inboxes.contains inbox := by
  unfold Table.contains
  cases settles with
  | same same => rw [same]
  | filled waits there => rw [waits, there]; rfl

theorem Settles.waited (settles : Settles inbox b b') (waits : b'.inboxes.get? inbox = some none) :
    b.inboxes.get? inbox = some none := by
  cases settles with
  | same same => exact same.symm.trans waits
  | filled waits' _ => exact waits'

theorem SameBoxes.settles (same : SameBoxes b b') (inbox : String) : Settles inbox b b' :=
  .same (congrArg (·.get? inbox) same.inboxes)

theorem deliver_settles (b : Bus) (subject : String) (m : Message) (inbox : String) :
    Settles inbox b (b.deliver subject m).2 := by
  cases own : isInbox subject with
  | false => exact (deliver_same own b m).settles inbox
  | true =>
    have posts := (deliver_posts own b m).1
    generalize (b.deliver subject m).2 = b' at posts
    cases posts with
    | lost _ inboxes => exact .same (congrArg (·.get? inbox) inboxes)
    | filled waits inboxes =>
      by_cases here : inbox = subject
      · subst here
        exact .filled waits (inboxes ▸ Table.get?_insert_self _ _ _)
      · exact .same (inboxes ▸ Table.get?_insert_of_ne here _ _)

theorem publish_settles (b : Bus) (ts : Tokens) (c : Context) (now : Moment) (m : Message) (inbox : String) :
    Settles inbox b (b.publish ts c now m).2 := by
  unfold publish
  split
  · exact .same rfl
  · exact deliver_settles b _ m inbox

theorem reply_settles (b : Bus) (ts : Tokens) (c : Context) (now : Moment) (received answer : Message)
    (inbox : String) : Settles inbox b (b.reply ts c now received answer).2 := by
  unfold reply
  split
  · exact .same rfl
  · split
    · exact .same rfl
    · have delivered := deliver_settles b ‹String› answer inbox
      dsimp only
      split <;> exact delivered

/-- A request leaves the inboxes of others alone. -/
theorem openRequest_settles (other : inbox ≠ inboxPrefix ++ inboxId) (b : Bus) (ts : Tokens) (c : Context)
    (now : Moment) (m : Message) (timeout : Nat) : Settles inbox b (b.openRequest ts c now m timeout inboxId).2 := by
  have opened : Settles inbox b { b with inboxes := b.inboxes.insert (inboxPrefix ++ inboxId) none } :=
    .same (Table.get?_insert_of_ne other none b.inboxes)
  unfold openRequest
  split
  · exact .same rfl
  · dsimp only
    split
    · exact .same rfl
    · have sent := opened.trans (deliver_settles _ (b.subjectFor m.recipient m.topic)
        { m with replyTo := some (inboxPrefix ++ inboxId) } inbox)
      split
      · exact sent.trans (.same (Table.get?_erase_of_ne other _))
      · exact sent

/-- A request that was not refused has an inbox. -/
theorem openRequest_contains (b : Bus) (ts : Tokens) (c : Context) (now : Moment) (m : Message) (timeout : Nat)
    (inboxId : String) {r : Request} (sent : (b.openRequest ts c now m timeout inboxId).1 = .ok r) :
    r.inbox = inboxPrefix ++ inboxId ∧
      (b.openRequest ts c now m timeout inboxId).2.inboxes.contains r.inbox = true := by
  have opened : (b.inboxes.insert (inboxPrefix ++ inboxId) none).contains (inboxPrefix ++ inboxId) = true := by
    rw [Table.contains_insert, decide_eq_true rfl, Bool.true_or]
  have settles := deliver_settles { b with inboxes := b.inboxes.insert (inboxPrefix ++ inboxId) none }
    (b.subjectFor m.recipient m.topic) { m with replyTo := some (inboxPrefix ++ inboxId) } (inboxPrefix ++ inboxId)
  unfold openRequest at sent ⊢
  split at sent
  · cases sent
  · dsimp only at sent ⊢
    split at sent
    · cases sent
    · split at sent
      · cases sent
      · rename_i heard accepted
        cases sent
        rw [if_neg heard, if_neg accepted]
        exact ⟨rfl, settles.contains.trans opened⟩

/-- A reply goes into the inbox that waits for it, unless the replier gave up. -/
theorem reply_taken {received : Message} (alive : c.check ts now = .ok ()) (addressed : received.replyTo = some inbox)
    (own : isInbox inbox = true) (waits : b.inboxes.get? inbox = some none) (answer : Message) :
    (b.reply ts c now received answer).1 = .ok () ∧
      (b.reply ts c now received answer).2.inboxes = b.inboxes.insert inbox (some answer) := by
  simp [reply, alive, addressed, deliver, own, handToInbox, waits, countDelivered]

end Bus

namespace Answer

/-- Whether the reply went into this inbox. -/
def fills (inbox : String) (a : Answer) : Bool := a.received.replyTo = some inbox && a.result.isOk

theorem fills_iff {a : Answer} {inbox : String} : a.fills inbox = true ↔ a.Fills inbox := by
  rw [fills, Bool.and_eq_true, decide_eq_true_eq]
  constructor
  · rintro ⟨addressed, taken⟩
    cases result : a.result with
    | ok => exact ⟨addressed, result⟩
    | error => cases result ▸ taken
  · rintro ⟨addressed, taken⟩
    exact ⟨addressed, taken ▸ rfl⟩

/-- The reply went into the inbox of a request that waits, no other did, and the request gets it when it looks. -/
structure Serves (a : Answer) (inbox : String) (e : Exchange) : Prop where
  taken : a.result = .ok ()
  once : e.answers.filter (·.fills inbox) = [a]
  heard : ∀ i, e.Waits i inbox → ∀ around,
    ((e.look i around).inquiries[i]?).map Inquiry.state = some (.returned (.ok a.message))

end Answer

namespace Exchange

/-- A call to reply, and what the bus makes of it. -/
def replied (e : Exchange) (context : Context) (around : Surroundings) (received : Message) (id : String)
    (payload : Json) : Answer :=
  let (result, after) :=
    e.bus.reply around.tokens context around.moment received (received.replyWith id around.time payload)
  { context, around, received, id, payload, result, before := e.bus, after }

/-- Every inbox is that of a request that was made, an empty one has had no reply, and no inbox has had two. -/
structure Single (e : Exchange) : Prop where
  own : ∀ q ∈ e.inquiries, ∀ r, q.state = .waits r → r.inbox = q.inbox
  waiting : ∀ i inbox, e.Waits i inbox → e.bus.inboxes.contains inbox = true
  asked : ∀ inbox, e.bus.inboxes.contains inbox = true → inbox ∈ e.inquiries.map Inquiry.inbox
  empty : ∀ inbox, e.bus.inboxes.get? inbox = some none → ∀ a ∈ e.answers, ¬ a.Fills inbox
  filled : ∀ inbox, Bus.isInbox inbox = true → ∀ a ∈ e.answers, a.Fills inbox → inbox ∈ e.inquiries.map Inquiry.inbox
  once : ∀ inbox, Bus.isInbox inbox = true → e.answers.Pairwise fun a a' => ¬ (a.Fills inbox ∧ a'.Fills inbox)

/-- Whatever is in the inbox, it is this message. -/
def Holds (e : Exchange) (inbox : String) (m : Message) : Prop := ∀ x, e.bus.inboxes.get? inbox = some x → x = some m

variable {e : Exchange} {bus : Bus} {inbox inboxId : String} {a : Answer} {ctx : Context} {around : Surroundings}
  {m message : Message} {i : Nat} {r : Request} {result : Except Error Message} {state : InquiryState}

theorem opened_single (config : BusConfig) : Single (opened config) where
  own := fun _ there => nomatch there
  waiting := fun _ _ ⟨_, _, here, _⟩ => nomatch here
  asked := fun _ there => nomatch there
  empty := fun _ there => nomatch there
  filled := fun _ _ _ there => nomatch there
  once := fun _ _ => .nil

theorem answer_replied (e : Exchange) (context : Context) (around : Surroundings) (received : Message) (id : String)
    (payload : Json) : e.answer context around received id payload = { e with
      bus := (e.replied context around received id payload).after
      answers := e.answers ++ [e.replied context around received id payload] } :=
  rfl

theorem Single.isInbox (single : e.Single) (waits : e.bus.inboxes.get? inbox = some none) :
    Bus.isInbox inbox = true :=
  asked_isInbox (single.asked inbox (Option.isSome_iff_exists.mpr ⟨none, waits⟩))

/-- What touches no request. -/
theorem Single.beside (single : e.Single) (settles : ∀ inbox, Bus.Settles inbox e.bus bus) :
    Single { e with bus } where
  own := single.own
  waiting := fun i inbox waits => (settles inbox).contains.trans (single.waiting i inbox waits)
  asked := fun inbox there => single.asked inbox ((settles inbox).contains.symm.trans there)
  empty := fun inbox waits => single.empty inbox ((settles inbox).waited waits)
  filled := single.filled
  once := single.once

theorem other_of_fresh (asked : inbox ∈ e.inquiries.map Inquiry.inbox)
    (fresh : inboxId ∉ e.inquiries.map Inquiry.inboxId) : inbox ≠ Bus.inboxPrefix ++ inboxId := by
  rintro rfl
  exact fresh (asked_inboxId asked)

theorem Single.asking (single : e.Single) (fresh : inboxId ∉ e.inquiries.map Inquiry.inboxId)
    (settles : ∀ inbox, inbox ≠ Bus.inboxPrefix ++ inboxId → Bus.Settles inbox e.bus bus)
    (own : ∀ r, state = .waits r → r.inbox = Bus.inboxPrefix ++ inboxId)
    (opened : ∀ r, state = .waits r → bus.inboxes.contains r.inbox = true) :
    Single { e with bus, inquiries := e.inquiries ++ [{ message := m, inboxId, state }] } := by
  have inboxes : (e.inquiries ++ [({ message := m, inboxId, state } : Inquiry)]).map Inquiry.inbox =
      e.inquiries.map Inquiry.inbox ++ [Bus.inboxPrefix ++ inboxId] := List.map_append
  refine ⟨fun q there r waits => ?_, fun i inbox waits => ?_, fun inbox there => ?_,
    fun inbox waits a there fills => ?_, fun inbox box a there fills => ?_, single.once⟩
  · rcases List.mem_append.mp there with earlier | last
    · exact single.own q earlier r waits
    · obtain rfl := List.mem_singleton.mp last
      exact own r waits
  · rcases waits_asking.mp waits with earlier | ⟨_, r, waits', rfl⟩
    · have there := single.waiting i inbox earlier
      exact (settles inbox (other_of_fresh (single.asked inbox there) fresh)).contains.trans there
    · exact opened r waits'
  · rw [inboxes, List.mem_append, List.mem_singleton]
    by_cases drawn : inbox = Bus.inboxPrefix ++ inboxId
    · exact .inr drawn
    · exact .inl (single.asked inbox ((settles inbox drawn).contains.symm.trans there))
  · -- An inbox that is drawn only now cannot have had a reply: that would have needed a request for it.
    have other := other_of_fresh (single.filled inbox ?_ a there fills) fresh
    · exact single.empty inbox ((settles inbox other).waited waits) a there fills
    · by_cases drawn : inbox = Bus.inboxPrefix ++ inboxId
      · exact drawn ▸ Bus.isInbox_inbox inboxId
      · exact single.isInbox ((settles inbox drawn).waited waits)
  · rw [inboxes]
    exact List.mem_append_left _ (single.filled inbox box a there fills)

theorem ask_single (single : e.Single) (fresh : inboxId ∉ e.inquiries.map Inquiry.inboxId) (m : Message)
    (timeout : Nat) : (e.ask ctx around m timeout inboxId).Single := by
  have settles : ∀ inbox, inbox ≠ Bus.inboxPrefix ++ inboxId → Bus.Settles inbox e.bus
      (e.bus.openRequest around.tokens ctx around.moment m timeout inboxId).2 := fun _ other =>
    Bus.openRequest_settles other e.bus around.tokens ctx around.moment m timeout
  have contains := @Bus.openRequest_contains e.bus around.tokens ctx around.moment m timeout inboxId
  unfold ask
  generalize e.bus.openRequest around.tokens ctx around.moment m timeout inboxId = done at settles contains
  obtain ⟨result, bus⟩ := done
  cases result with
  | error err => exact single.asking fresh settles nofun nofun
  | ok r =>
    obtain ⟨own, there⟩ := contains rfl
    refine single.asking fresh settles ?_ ?_
    · rintro _ ⟨⟩
      exact own
    · rintro _ ⟨⟩
      exact there

theorem Single.looking (single : e.Single) (distinct : (e.inquiries.map Inquiry.inboxId).Nodup)
    (here : e.inquiries[i]? = some { message := m, inboxId, state := .waits r }) :
    Single
      { e with
        bus := e.bus.closeRequest r
        inquiries := e.inquiries.set i { message := m, inboxId, state := .returned result } } := by
  have erased : ∀ inbox, (e.bus.closeRequest r).inboxes.get? inbox =
      if inbox = r.inbox then none else e.bus.inboxes.get? inbox := fun _ => Table.get?_erase _ _ _
  have inboxes : (e.inquiries.set i { message := m, inboxId, state := .returned result }).map Inquiry.inbox =
      e.inquiries.map Inquiry.inbox := set_inquiries here _ _ rfl
  refine ⟨fun q there r' waits => ?_, fun j inbox waits => ?_, fun inbox there => ?_, fun inbox there => ?_,
    fun inbox box => ?_, single.once⟩
  · rcases List.mem_or_eq_of_mem_set there with other | rfl
    · exact single.own q other r' waits
    · cases waits
  · obtain ⟨other, waits'⟩ := (waits_looking here).mp waits
    -- The inbox that is closed is that of the request that looked, and no other request has the same.
    have apart : inbox ≠ r.inbox := by
      rintro rfl
      exact other (waits_unique_of_own distinct single.own waits' ⟨_, r, here, rfl, rfl⟩)
    rw [Table.contains, erased, if_neg apart]
    exact single.waiting j inbox waits'
  · rw [inboxes]
    rw [Table.contains, erased] at there
    split at there
    · cases there
    · exact single.asked inbox there
  · rw [erased] at there
    split at there
    · cases there
    · exact single.empty inbox there
  · rw [inboxes]
    exact single.filled inbox box

theorem look_single (single : e.Single) (distinct : (e.inquiries.map Inquiry.inboxId).Nodup) (i : Nat)
    (around : Surroundings) : (e.look i around).Single := by
  unfold look
  split
  · rename_i here
    split
    · exact single.looking distinct here
    · exact single
  · exact single

/-- A reply goes into an inbox that had none, or into no inbox. -/
theorem Single.answering (single : e.Single) (settles : ∀ inbox, Bus.Settles inbox e.bus bus)
    (first : ∀ inbox, Bus.isInbox inbox = true → a.Fills inbox →
      e.bus.inboxes.get? inbox = some none ∧ bus.inboxes.get? inbox ≠ some none) :
    Single { e with bus, answers := e.answers ++ [a] } := by
  have moved := single.beside settles
  refine ⟨single.own, moved.waiting, moved.asked, fun inbox waits a' there fills => ?_,
    fun inbox own a' there fills => ?_, fun inbox own => ?_⟩
  · rcases List.mem_append.mp there with earlier | last
    · exact moved.empty inbox waits a' earlier fills
    · obtain rfl := List.mem_singleton.mp last
      exact (first inbox (moved.isInbox waits) fills).2 waits
  · rcases List.mem_append.mp there with earlier | last
    · exact single.filled inbox own a' earlier fills
    · obtain rfl := List.mem_singleton.mp last
      exact single.asked inbox (Option.isSome_iff_exists.mpr ⟨none, (first inbox own fills).1⟩)
  · refine List.pairwise_append.mpr ⟨single.once inbox own, List.pairwise_singleton _ _, fun a' earlier a'' last => ?_⟩
    obtain rfl := List.mem_singleton.mp last
    exact fun ⟨fills, fills'⟩ => single.empty inbox (first inbox own fills').1 a' earlier fills

theorem answer_single (single : e.Single) (ctx : Context) (around : Surroundings) (received : Message) (id : String)
    (payload : Json) : (e.answer ctx around received id payload).Single := by
  have settles := Bus.reply_settles e.bus around.tokens ctx around.moment received
    (received.replyWith id around.time payload)
  have replied := Bus.reply_replied e.bus around.tokens ctx around.moment received
    (received.replyWith id around.time payload)
  unfold answer
  generalize e.bus.reply around.tokens ctx around.moment received (received.replyWith id around.time payload) = done
    at replied settles
  obtain ⟨result, bus⟩ := done
  refine single.answering settles fun inbox own ⟨addressed, taken⟩ => ?_
  cases replied with
  | barred | unaddressed | late => cases taken
  | astray addressed' ordinary =>
    cases addressed.symm.trans addressed'
    cases own.symm.trans ordinary
  | taken addressed' _ waits inboxes =>
    cases addressed.symm.trans addressed'
    refine ⟨waits, fun empty => ?_⟩
    rw [inboxes, Table.get?_insert_self] at empty
    cases empty

theorem step_single (single : e.Single) (t : Traffic)
    (distinct : (e.inquiries.map Inquiry.inboxId ++ t.inboxId?.toList).Nodup) : (e.step t).Single := by
  cases t with
  | subscribe agent topic =>
    dsimp only [step]
    split
    · rename_i subscribed
      exact single.beside (Bus.subscribe_same subscribed).settles
    · exact single
  | unsubscribe | close => exact single.beside fun _ => .same rfl
  | receive id =>
    dsimp only [step]
    split
    · rename_i received
      exact single.beside (Bus.receive_same received).settles
    · exact single
  | publish ctx around m => exact single.beside (Bus.publish_settles e.bus around.tokens ctx around.moment m)
  | request ctx around m timeout inboxId =>
    have fresh := fun earlier => (List.nodup_append.mp distinct).2.2 inboxId earlier inboxId (.head _) rfl
    exact ask_single single fresh m timeout
  | look i around => exact look_single single (List.nodup_append.mp distinct).1 i around
  | reply ctx around received id payload => exact answer_single single ctx around received id payload

theorem run_single (single : e.Single) {traffic : List Traffic}
    (distinct : (e.inquiries.map Inquiry.inboxId ++ traffic.filterMap Traffic.inboxId?).Nodup) :
    (e.run traffic).Single := by
  induction traffic generalizing e with
  | nil => exact single
  | cons t rest ih =>
    rw [filterMap_cons_toList, ← List.append_assoc] at distinct
    refine ih (step_single single t (List.nodup_append.mp distinct).1) ?_
    rwa [step_asks]

theorem run_asks (e : Exchange) (traffic : List Traffic) :
    (e.run traffic).inquiries.map Inquiry.inboxId =
      e.inquiries.map Inquiry.inboxId ++ traffic.filterMap Traffic.inboxId? := by
  induction traffic generalizing e with
  | nil => exact (List.append_nil _).symm
  | cons t rest ih => rw [filterMap_cons_toList, ← List.append_assoc, ← step_asks, run, List.foldl_cons, ← ih, run]

/-! ## The reply in an inbox -/

theorem Holds.settles (holds : e.Holds inbox m) (settles : Bus.Settles inbox e.bus bus) (x : Option Message)
    (there : bus.inboxes.get? inbox = some x) : x = some m := by
  cases settles with
  | same same => exact holds x (same.symm.trans there)
  | filled waits _ => cases holds none waits

theorem step_holds (holds : e.Holds (Bus.inboxPrefix ++ inboxId) message)
    (asked : inboxId ∈ e.inquiries.map Inquiry.inboxId) (t : Traffic)
    (distinct : (e.inquiries.map Inquiry.inboxId ++ t.inboxId?.toList).Nodup) :
    (e.step t).Holds (Bus.inboxPrefix ++ inboxId) message := by
  cases t with
  | subscribe agent topic =>
    dsimp only [step]
    split
    · rename_i subscribed
      exact holds.settles ((Bus.subscribe_same subscribed).settles _)
    · exact holds
  | unsubscribe | close => exact holds
  | receive id =>
    dsimp only [step]
    split
    · rename_i received
      exact holds.settles ((Bus.receive_same received).settles _)
    · exact holds
  | publish ctx around m => exact holds.settles (Bus.publish_settles e.bus around.tokens ctx around.moment m _)
  | request ctx around m timeout drawn =>
    have differ := (List.nodup_append.mp distinct).2.2 inboxId asked drawn (.head _)
    exact holds.settles (Bus.openRequest_settles (fun same => differ (Bus.inbox_eq_iff.mp same)) e.bus around.tokens
      ctx around.moment m timeout)
  | look i around =>
    dsimp only [step, look]
    split
    · split
      · intro x there
        dsimp only [Bus.closeRequest] at there
        rw [Table.get?_erase] at there
        split at there
        · cases there
        · exact holds x there
      · exact holds
    · exact holds
  | reply ctx around received id payload =>
    exact holds.settles (Bus.reply_settles e.bus around.tokens ctx around.moment received
      (received.replyWith id around.time payload) _)

theorem run_holds (holds : e.Holds (Bus.inboxPrefix ++ inboxId) message)
    (asked : inboxId ∈ e.inquiries.map Inquiry.inboxId) {traffic : List Traffic}
    (distinct : (e.inquiries.map Inquiry.inboxId ++ traffic.filterMap Traffic.inboxId?).Nodup) :
    (e.run traffic).Holds (Bus.inboxPrefix ++ inboxId) message := by
  induction traffic generalizing e with
  | nil => exact holds
  | cons t rest ih =>
    rw [filterMap_cons_toList, ← List.append_assoc] at distinct
    refine ih (step_holds holds asked t (List.nodup_append.mp distinct).1) ?_ ?_
    · rw [step_asks]
      exact List.mem_append_left _ asked
    · rwa [step_asks]

/-- Who waits at an inbox gets what it holds. -/
theorem look_holds (single : e.Single) (holds : e.Holds inbox message) (waits : e.Waits i inbox)
    (around : Surroundings) :
    ((e.look i around).inquiries[i]?).map Inquiry.state = some (.returned (.ok message)) := by
  have there := single.waiting i inbox waits
  obtain ⟨x, there⟩ := Option.isSome_iff_exists.mp there
  cases holds x there
  obtain ⟨⟨m, inboxId, _⟩, r, here, rfl, rfl⟩ := waits
  have inside := (List.getElem?_eq_some_iff.mp here).1
  have polled : e.bus.pollRequest around.tokens around.moment r = some (.ok message) := by
    rw [Bus.pollRequest, there]
  rw [look, here]
  simp [polled, inside]

theorem step_answers (e : Exchange) (t : Traffic) : e.answers <+: (e.step t).answers := by
  cases t with
  | subscribe | receive =>
    dsimp only [step]
    split <;> exact List.prefix_refl _
  | unsubscribe | close | publish | request => exact List.prefix_refl _
  | look =>
    dsimp only [step, look]
    split
    · split <;> exact List.prefix_refl _
    · exact List.prefix_refl _
  | reply => exact List.prefix_append _ _

theorem run_answers (e : Exchange) (traffic : List Traffic) : e.answers <+: (e.run traffic).answers := by
  induction traffic generalizing e with
  | nil => exact List.prefix_refl _
  | cons t rest ih => exact (step_answers e t).trans (ih (e.step t))

theorem Single.filter_fills (single : e.Single) (own : Bus.isInbox inbox = true) (there : a ∈ e.answers)
    (fills : a.Fills inbox) : e.answers.filter (·.fills inbox) = [a] := by
  have once := single.once inbox own
  obtain ⟨front, back, split⟩ := List.append_of_mem there
  rw [split] at once ⊢
  obtain ⟨_, later, earlier⟩ := List.pairwise_append.mp once
  have front' : front.filter (·.fills inbox) = [] := List.filter_eq_nil_iff.mpr fun a' inside fills' =>
    earlier a' inside a (.head _) ⟨Answer.fills_iff.mp fills', fills⟩
  have back' : back.filter (·.fills inbox) = [] := List.filter_eq_nil_iff.mpr fun a' inside fills' =>
    (List.pairwise_cons.mp later).1 a' inside ⟨fills, Answer.fills_iff.mp fills'⟩
  rw [List.filter_append, List.filter_cons_of_pos (Answer.fills_iff.mpr fills), front', back', List.nil_append]

/-- A reply to a request that waits, whatever others do later. -/
theorem Single.serves (single : e.Single) {received : Message}
    (alive : ctx.check around.tokens around.moment = .ok ()) (addressed : received.replyTo = some inbox)
    (waits : e.bus.inboxes.get? inbox = some none) (id : String) (payload : Json) {traffic : List Traffic}
    (distinct : (e.inquiries.map Inquiry.inboxId ++ traffic.filterMap Traffic.inboxId?).Nodup) :
    (e.replied ctx around received id payload).Serves inbox
      ((e.answer ctx around received id payload).run traffic) := by
  obtain ⟨taken, inboxes⟩ := Bus.reply_taken alive addressed (single.isInbox waits) waits
    (received.replyWith id around.time payload)
  have fills : (e.replied ctx around received id payload).Fills inbox := ⟨addressed, taken⟩
  have there : e.replied ctx around received id payload ∈
      ((e.answer ctx around received id payload).run traffic).answers :=
    (run_answers _ _).subset (List.mem_append_right _ (.head _))
  have single' := run_single (answer_single single ctx around received id payload) distinct
  have holds : (e.answer ctx around received id payload).Holds inbox
      (e.replied ctx around received id payload).message := by
    intro x inside
    rw [answer_replied, replied, inboxes, Table.get?_insert_self] at inside
    cases inside
    rfl
  refine ⟨taken, single'.filter_fills (single.isInbox waits) there fills, fun i waiting later => ?_⟩
  obtain ⟨q, asked, rfl⟩ := List.mem_map.mp (single.asked inbox (Option.isSome_iff_exists.mpr ⟨none, waits⟩))
  have holds' := run_holds holds (List.mem_map_of_mem asked) distinct
  exact look_holds single' holds' waiting later

end Exchange
end Handover
