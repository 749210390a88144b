import Handover.Proofs.Bus.Deliveries
import Handover.Proofs.Exchange.History
import Mathlib.Data.List.Sort

/-!
# Traffic in which deliveries overlap

Any traffic may happen while messages are delivered, and between two steps of a delivery. However it comes, the list of a
subject names just those whose loops run, and some whose loops have ended: `lists_name_the_running`.
-/

namespace Handover

namespace Bus
variable {b b' : Bus} {subject : String} {m : Message} {ts : Tokens} {c : Context} {now : Moment}

/-- The subscriptions on a subject, in the order in which they were made. -/
def on (b : Bus) (subject : String) : List Subscription := b.subscriptions.filter (·.subject = subject)

/-- Those of them whose loops run. -/
def running (b : Bus) (subject : String) : List Subscription := (b.on subject).filter (·.listening)

/-! ## What the list of a subject names -/

theorem Sound.on_increasing (sound : b.Sound) (subject : String) :
    ((b.on subject).map Subscription.id).Pairwise (· < ·) := by
  have all : (b.subscriptions.map Subscription.id).Pairwise (· < ·) := sound.ids ▸ List.pairwise_lt_range'
  exact all.sublist (List.filter_sublist.map _)

theorem Sound.listed_sublist (sound : b.Sound) (subject : String) :
    (b.listed subject).Sublist ((b.on subject).map Subscription.id) := by
  have once := sound.once subject
  refine List.sublist_of_subperm_of_pairwise (List.subperm_of_subset (once.imp Nat.ne_of_lt) fun id there => ?_) once
    (sound.on_increasing subject)
  obtain ⟨s, known, rfl, on⟩ := sound.own subject id there
  exact List.mem_map_of_mem (List.mem_filter.mpr ⟨known, decide_eq_true on⟩)

theorem Sound.listed_running (sound : b.Sound) (subject : String) :
    (b.listed subject).filter b.isListening = (b.running subject).map Subscription.id := by
  have increasing : ((b.running subject).map Subscription.id).Pairwise (· < ·) :=
    (sound.on_increasing subject).sublist (List.filter_sublist.map _)
  refine List.Pairwise.eq_of_mem_iff ((sound.once subject).filter _) increasing fun id => ?_
  simp only [running, on, List.mem_filter, List.mem_map, decide_eq_true_eq]
  constructor
  · rintro ⟨there, listening⟩
    obtain ⟨s, known, rfl, on⟩ := sound.own subject id there
    exact ⟨s, ⟨⟨known, on⟩, sound.isListening known ▸ listening⟩, rfl⟩
  · rintro ⟨s, ⟨⟨known, rfl⟩, listening⟩, rfl⟩
    exact ⟨sound.listed s known listening, (sound.isListening known).trans listening⟩

theorem Sound.subscriberCount_eq (sound : b.Sound) (subject : String) :
    b.subscriberCount subject = (b.running subject).length := by
  rw [subscriberCount, sound.listed_running, List.length_map]

theorem Thins.removed (thins : Thins b b') {id : Nat} (sound : b.Sound) (there : id ∈ b.listed subject)
    (gone : id ∉ b'.listed subject) : b.Ended id := by
  obtain ⟨s, known, rfl, _⟩ := sound.own subject id there
  refine ⟨s, sound.subscription? known, ?_⟩
  rw [← sound.isListening known]
  exact Bool.eq_false_iff.mpr fun listening => gone (thins.kept subject s.id there listening)

theorem Thins.subjects (thins : Thins b b') :
    b'.subscriptions.map Subscription.subject = b.subscriptions.map Subscription.subject := by
  obtain ⟨⟨f, keeps, mapped, _⟩, _⟩ := thins
  rw [mapped, List.map_map]
  exact List.map_congr_left fun s _ => keeps.subject s

/-! ## Operations in one go -/

/-- No list becomes empty. -/
def Tidy (b b' : Bus) : Prop := ∀ subject, b'.subjects.get? subject = some [] → b.subjects.get? subject = some []

theorem tidy_of_same (same : b'.subjects = b.subjects) : Tidy b b' := fun _ empty => same ▸ empty

theorem prune_tidy (b : Bus) (subject : String) (ids : List Nat) : Tidy b (b.prune subject ids) := by
  intro other empty
  unfold prune at empty
  split at empty
  · exact empty
  · split at empty
    · rw [Table.get?_erase] at empty
      split at empty
      · cases empty
      · exact empty
    · rename_i some'
      rw [Table.get?_insert] at empty
      split at empty
      · exact absurd (Option.some.inj empty) some'
      · exact empty

theorem handed_subjects (b : Bus) (m : Message) (ids : List Nat) :
    (ids.foldl (fun b id => b.handTo m id) b).subjects = b.subjects := by
  induction ids generalizing b with
  | nil => rfl
  | cons id rest ih => exact (ih _).trans (handTo_rest b m id).1

theorem deliver_tidy (b : Bus) (subject : String) (m : Message) : Tidy b (b.deliver subject m).2 := by
  intro other empty
  unfold deliver handToInbox handToAll at empty
  dsimp only at empty
  split at empty
  · split at empty <;> exact empty
  · have handed := handed_subjects { b with stats := { b.stats with published := b.stats.published + 1 } } m
    split at empty
    · exact handed _ ▸ empty
    · exact handed _ ▸ prune_tidy _ subject _ other empty

theorem publish_tidy (b : Bus) (ts : Tokens) (c : Context) (now : Moment) (m : Message) :
    Tidy b (b.publish ts c now m).2 := by
  unfold publish
  split
  · exact tidy_of_same rfl
  · exact deliver_tidy b _ m

theorem openRequest_tidy (b : Bus) (ts : Tokens) (c : Context) (now : Moment) (m : Message) (timeout : Nat)
    (inboxId : String) : Tidy b (b.openRequest ts c now m timeout inboxId).2 := by
  unfold openRequest
  split
  · exact tidy_of_same rfl
  · dsimp only
    split
    · exact tidy_of_same rfl
    · have sent := deliver_tidy { b with inboxes := b.inboxes.insert (inboxPrefix ++ inboxId) none }
        (b.subjectFor m.recipient m.topic) { m with replyTo := some (inboxPrefix ++ inboxId) }
      split <;> exact sent

theorem reply_tidy (b : Bus) (ts : Tokens) (c : Context) (now : Moment) (received answer : Message) :
    Tidy b (b.reply ts c now received answer).2 := by
  unfold reply
  split
  · exact tidy_of_same rfl
  · split
    · exact tidy_of_same rfl
    · rename_i inbox _
      dsimp only
      split <;> exact deliver_tidy b inbox answer

theorem subscribe_tidy {agent topic : String} {s : Subscription} (done : b.subscribe agent topic = .ok (s, b')) :
    Tidy b b' := by
  unfold subscribe at done
  split at done
  · cases done
  · cases done
    intro other empty
    rw [Table.get?_insert] at empty
    split at empty
    · simp at empty
    · exact empty

end Bus

theorem Exchange.step_tidy (e : Exchange) (t : Traffic) : e.bus.Tidy (e.step t).bus := by
  cases t with
  | subscribe agent topic =>
    dsimp only [step]
    split
    · rename_i done
      exact Bus.subscribe_tidy done
    · exact Bus.tidy_of_same rfl
  | unsubscribe | close => exact Bus.tidy_of_same rfl
  | receive id =>
    dsimp only [step]
    split
    · rename_i done
      obtain ⟨s, rest, _, _, _, rfl⟩ := Bus.receive_some done
      exact Bus.tidy_of_same rfl
    · exact Bus.tidy_of_same rfl
  | publish ctx around m => exact Bus.publish_tidy _ _ _ _ _
  | request ctx around m timeout inboxId => exact Bus.openRequest_tidy _ _ _ _ _ _ _
  | look i around => exact Bus.tidy_of_same (look_calm e i around).queues.subjects
  | reply ctx around received id payload => exact Bus.reply_tidy _ _ _ _ _ _

/-- An exchange, and the deliveries that somebody is at. -/
structure Concourse where
  exchange : Exchange
  deliveries : List Delivery := []

namespace Concourse

inductive Act where
  /-- Something happens in one go. -/
  | whole (t : Traffic)
  /-- Somebody, who publishes a message or makes a request, begins to deliver it. -/
  | send (subject : String) (m : Message)
  | advance (delivery : Nat)

def bus (c : Concourse) : Bus := c.exchange.bus

def withBus (c : Concourse) (bus : Bus) (deliveries : List Delivery) : Concourse :=
  ⟨{ c.exchange with bus }, deliveries⟩

def step (c : Concourse) : Act → Concourse
  | .whole t => { c with exchange := c.exchange.step t }
  | .send subject m =>
    if Bus.isInbox subject then c.withBus (c.bus.deliver subject m).2 c.deliveries
    else c.withBus (c.bus.dispatch subject m).1 (c.deliveries ++ [(c.bus.dispatch subject m).2])
  | .advance k =>
    match c.deliveries[k]? with
    | some d => c.withBus (d.advance c.bus).1 (c.deliveries.set k (d.advance c.bus).2)
    | none => c

def run (c : Concourse) (acts : List Act) : Concourse := acts.foldl step c

def opened (config : BusConfig) : Concourse where
  exchange := .opened config

/-- The agent and the topic that a subscription is made for. -/
def Act.address? : Act → Option (String × String)
  | whole t => t.address?
  | send .. | advance _ => none

/-- What an act does to the subscriptions. -/
inductive Turns (b : Bus) (a : Act) (b' : Bus) : Prop where
  | joined (made : a.address? = some (agent, topic)) (joins : b.Joins agent topic s b') : Turns b a b'
  | thinned (alone : a.address? = none) (thins : b.Thins b') (lead : b'.subjectPrefix = b.subjectPrefix) : Turns b a b'

/-- No delivery makes the lists wrong, and an empty list is about to be taken away. -/
structure Sound (c : Concourse) : Prop where
  bus : c.bus.Sound
  fits : ∀ d ∈ c.deliveries, d.Fits c.bus
  emptied : ∀ subject, c.bus.subjects.get? subject = some [] → ∃ d ∈ c.deliveries, d.Sweeps subject

variable {c : Concourse} {a : Act} {acts : List Act} {subject : String} {d : Delivery} {k : Nat} {b b' : Bus}

/-! ## One act -/

theorem Turns.sound (turns : Turns b a b') (sound : b.Sound) : b'.Sound := by
  cases turns with
  | joined _ joins => exact joins.sound sound
  | thinned _ thins => exact thins.sound sound

theorem Turns.lasts (turns : Turns b a b') : b.Lasts b' := by
  cases turns with
  | joined _ joins => exact joins.lasts
  | thinned _ thins => exact thins.lasts

theorem Turns.lead (turns : Turns b a b') : b'.subjectPrefix = b.subjectPrefix := by
  cases turns with
  | joined _ joins => exact joins.lead
  | thinned _ _ lead => exact lead

theorem Turns.subjects (turns : Turns b a b') :
    b'.subscriptions.map Subscription.subject = b.subscriptions.map Subscription.subject ++
      a.address?.toList.map fun address => b.subjectFor address.1 address.2 := by
  cases turns with
  | joined made joins =>
    rw [joins.subscriptions, List.map_append, made, joins.new]
    rfl
  | thinned alone thins => rw [thins.subjects, alone, Option.toList_none, List.map_nil, List.append_nil]

theorem Turns.removed (turns : Turns b a b') (sound : b.Sound) {id : Nat} (there : id ∈ b.listed subject)
    (gone : id ∉ b'.listed subject) : b.Ended id := by
  cases turns with
  | joined _ joins =>
    refine absurd ?_ gone
    rw [joins.listed]
    split
    · exact List.mem_append_left _ there
    · exact there
  | thinned _ thins => exact thins.removed sound there gone

theorem step_turns (sound : c.Sound) (a : Act) : Turns c.bus a (c.step a).bus := by
  cases a with
  | whole t =>
    have stirs := Exchange.step_stirs sound.bus t
    rcases stirs.joins_or_thins sound.bus with ⟨_, _, _, made, joins⟩ | ⟨alone, thins⟩
    · exact .joined made joins
    · exact .thinned alone thins stirs.settings.2
  | send subject m =>
    dsimp only [step]
    split
    · rename_i own
      have same := (Bus.deliver_posts own c.bus m).2
      exact .thinned rfl (same.thins sound.bus) same.lead
    · exact .thinned rfl (Bus.SameQueues.thins ⟨rfl, rfl, rfl, rfl⟩ sound.bus) rfl
  | advance k =>
    dsimp only [step]
    split
    · rename_i d here
      have advances := Delivery.advance_advances sound.bus (sound.fits d (List.mem_of_getElem? here))
      exact .thinned rfl advances.thins advances.lead
    · exact .thinned rfl (Bus.SameQueues.thins ⟨rfl, rfl, rfl, rfl⟩ sound.bus) rfl

theorem advance_sound (sound : c.Sound) (here : c.deliveries[k]? = some d) : (c.step (.advance k)).Sound := by
  have known := List.mem_of_getElem? here
  have advances := Delivery.advance_advances sound.bus (sound.fits d known)
  have within : k < c.deliveries.length := (List.getElem?_eq_some_iff.mp here).1
  simp only [step, here]
  refine ⟨advances.thins.sound sound.bus, fun d' there => ?_, fun subject empty => ?_⟩
  · rcases List.mem_or_eq_of_mem_set there with earlier | rfl
    · exact (sound.fits d' earlier).lasts advances.thins.lasts
    · exact advances.fits
  · rcases advances.emptied subject empty with sweeps | ⟨before, idle⟩
    · exact ⟨_, List.mem_set within _, sweeps⟩
    · -- The list was empty before because of another delivery, which is still there.
      obtain ⟨other, there, sweeps⟩ := sound.emptied subject before
      obtain ⟨i, place⟩ := List.getElem?_of_mem there
      have differ : k ≠ i := by
        rintro rfl
        cases here.symm.trans place
        exact idle sweeps
      exact ⟨other, List.mem_of_getElem? ((List.getElem?_set_ne differ).trans place), sweeps⟩

theorem step_sound (sound : c.Sound) (a : Act) : (c.step a).Sound := by
  have turns := step_turns sound a
  have sound' := turns.sound sound.bus
  have lasting : ∀ d ∈ c.deliveries, d.Fits (c.step a).bus := fun d there =>
    (sound.fits d there).lasts turns.lasts
  cases a with
  | whole t =>
    exact ⟨sound', lasting, fun subject empty => sound.emptied subject (Exchange.step_tidy c.exchange t subject empty)⟩
  | send subject m =>
    dsimp only [step] at sound' lasting ⊢
    by_cases own : Bus.isInbox subject = true
    · rw [if_pos own] at sound' lasting ⊢
      exact ⟨sound', lasting, fun other empty => sound.emptied other (Bus.deliver_tidy c.bus subject m other empty)⟩
    · rw [if_neg own] at sound' lasting ⊢
      refine ⟨sound', fun d there => ?_, fun other empty => ?_⟩
      · rcases List.mem_append.mp there with earlier | new
        · exact lasting d earlier
        · exact List.mem_singleton.mp new ▸ Delivery.dispatch_fits sound.bus subject m
      · obtain ⟨d, there, sweeps⟩ := sound.emptied other empty
        exact ⟨d, List.mem_append_left _ there, sweeps⟩
  | advance k =>
    cases here : c.deliveries[k]? with
    | some d => exact advance_sound sound here
    | none => simpa only [step, here] using sound

/-! ## Any number of acts -/

theorem run_sound (sound : c.Sound) (acts : List Act) : (c.run acts).Sound := by
  induction acts generalizing c with
  | nil => exact sound
  | cons a rest ih => exact ih (step_sound sound a)

theorem run_subjects (sound : c.Sound) (acts : List Act) :
    (c.run acts).bus.subscriptions.map Subscription.subject = c.bus.subscriptions.map Subscription.subject ++
      (acts.filterMap Act.address?).map fun address => c.bus.subjectFor address.1 address.2 := by
  induction acts generalizing c with
  | nil => exact (List.append_nil _).symm
  | cons a rest ih =>
    have turns := step_turns sound a
    have same : (fun address : String × String => (c.step a).bus.subjectFor address.1 address.2) =
        fun address => c.bus.subjectFor address.1 address.2 := by
      funext address
      rw [Bus.subjectFor, turns.lead, Bus.subjectFor]
    refine (ih (step_sound sound a)).trans ?_
    rw [turns.subjects, List.append_assoc, same, List.filterMap_cons]
    congr 1
    cases a.address? <;> rfl

theorem opened_sound (config : BusConfig) : (opened config).Sound :=
  ⟨⟨rfl, nofun, fun _ => .nil, nofun, nofun⟩, nofun, nofun⟩

theorem run_advance (here : c.deliveries[k]? = some d) (n : Nat) :
    c.run (List.replicate n (.advance k)) =
      c.withBus (Delivery.advances n (c.bus, d)).1 (c.deliveries.set k (Delivery.advances n (c.bus, d)).2) := by
  have within : k < c.deliveries.length := (List.getElem?_eq_some_iff.mp here).1
  induction n generalizing c d with
  | zero =>
    have same : c.deliveries.set k d = c.deliveries := by
      obtain ⟨_, rfl⟩ := List.getElem?_eq_some_iff.mp here
      exact List.set_getElem_self within
    exact congrArg (Concourse.mk c.exchange) same.symm
  | succ n ih =>
    have first : c.step (.advance k) = c.withBus (d.advance c.bus).1 (c.deliveries.set k (d.advance c.bus).2) := by
      simp only [step, here]
    rw [List.replicate_succ, run, List.foldl_cons, ← run, first,
      ih (d := (d.advance c.bus).2) (by simp [withBus, within]) (by simpa [withBus] using within),
      Nat.add_comm, Delivery.advances_add, Delivery.advances_one]
    simp [withBus, bus]

/-- A delivery that nobody gets in the way of does what one in one go does. -/
theorem undisturbed_delivery (sound : c.Sound) (ordinary : Bus.isInbox subject = false) (m : Message) :
    (c.run (.send subject m ::
      List.replicate ((c.bus.listed subject).length + 2) (.advance c.deliveries.length))).bus =
        (c.bus.deliver subject m).2 := by
  have sent : c.step (.send subject m) =
      c.withBus (c.bus.dispatch subject m).1 (c.deliveries ++ [(c.bus.dispatch subject m).2]) := by
    simp [step, ordinary]
  rw [run, List.foldl_cons, ← run, sent, run_advance (d := (c.bus.dispatch subject m).2) (by simp [withBus])]
  exact (Delivery.advances_deliver sound.bus ordinary m).1

/-- Whatever happens while messages are delivered, the list of a subject names all who were subscribed to it and whose
loops run, each of them once and in the order in which they subscribed, and nobody else but some of those whose loops
have ended. Only these are ever taken off it. It is empty only while a delivery is about to take it away. -/
theorem lists_name_the_running (config : BusConfig) (acts : List Act) (subject : String) :
    let c := (opened config).run acts
    c.bus.subscriptions.map Subscription.subject = (acts.filterMap Act.address?).map
      (fun address => Message.subject config.subjectPrefix address.1 address.2) ∧
    (c.bus.subscriptions.map Subscription.id).Nodup ∧
    (c.bus.listed subject).Sublist ((c.bus.on subject).map Subscription.id) ∧
    (c.bus.listed subject).filter c.bus.isListening = (c.bus.running subject).map Subscription.id ∧
    c.bus.subscriberCount subject = (c.bus.running subject).length ∧
    (∀ a, ∀ id ∈ c.bus.listed subject, id ∉ (c.step a).bus.listed subject → c.bus.Ended id) ∧
    (c.bus.subjects.get? subject = some [] → ∃ d ∈ c.deliveries, d.Sweeps subject) ∧
    ∀ k d, c.deliveries[k]? = some d → d.Sweeps subject →
      (c.step (.advance k)).bus.subjects.get? subject ≠ some [] := by
  intro c
  have sound : c.Sound := run_sound (opened_sound config) acts
  refine ⟨run_subjects (opened_sound config) acts, sound.bus.nodup, sound.bus.listed_sublist subject,
    sound.bus.listed_running subject, sound.bus.subscriberCount_eq subject,
    fun a id there gone => (step_turns sound a).removed sound.bus there gone, sound.emptied subject, ?_⟩
  rintro k d here ⟨sweeping, rfl⟩
  simp only [step, here, Delivery.advance, sweeping]
  exact Bus.sweep_fills c.bus d.subject

/-- Two deliveries find that the loop of the only subscription has ended. One takes it off the list, and before the list
is taken away somebody subscribes. -/
example :
    let m : Message :=
      { id := "1", sender := "a", recipient := "b", topic := "t", payload := .null, sentAt := ⟨0, 0⟩ }
    let acts : List Act := [.whole (.subscribe "b" "t"), .whole (.unsubscribe 1), .whole (.close 1),
      .send "agents.b.t" m, .send "agents.b.t" m, .advance 0, .advance 1, .advance 0,
      .whole (.subscribe "b" "t"), .advance 1, .advance 0]
    ((opened {}).run acts).bus.listed "agents.b.t" = [2] := by
  decide +kernel

end Concourse
end Handover
