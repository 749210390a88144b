import Handover.Proofs.Bus

/-!
# The queues of the subscriptions

A bus lists every subscription whose loop runs on its subject, once, and no queue is longer than it may be: `Sound`.
What is sent to a subject is offered once to every subscription on it, whoever was listed there before: `Hands`.
-/

namespace Handover

namespace Subscription

/-- A message to this subject goes into the queue. -/
def takes (s : Subscription) (capacity : Nat) (subject : String) : Bool :=
  s.subject == subject && s.offer capacity == .accepted

/-- A message to this subject does not fit into the queue. -/
def overflows (s : Subscription) (capacity : Nat) (subject : String) : Bool :=
  s.subject == subject && s.offer capacity == .full

variable {s : Subscription} {capacity : Nat} {subject : String}

theorem offer_accepted_iff : s.offer capacity = .accepted ↔ s.listening = true ∧ s.queue.length < capacity := by
  rw [← Nat.not_le]
  unfold offer
  cases s.listening <;> by_cases full : capacity ≤ s.queue.length <;> simp [full]

theorem offer_full_iff : s.offer capacity = .full ↔ s.listening = true ∧ capacity ≤ s.queue.length := by
  unfold offer
  cases s.listening <;> by_cases full : capacity ≤ s.queue.length <;> simp [full]

theorem offer_closed_iff : s.offer capacity = .closed ↔ s.listening = false := by
  unfold offer
  cases s.listening <;> by_cases full : capacity ≤ s.queue.length <;> simp [full]

theorem takes_iff : s.takes capacity subject = true ↔
    s.subject = subject ∧ s.listening = true ∧ s.queue.length < capacity := by
  rw [takes, Bool.and_eq_true, beq_iff_eq, beq_iff_eq, offer_accepted_iff]

theorem overflows_iff : s.overflows capacity subject = true ↔
    s.subject = subject ∧ s.listening = true ∧ capacity ≤ s.queue.length := by
  rw [overflows, Bool.and_eq_true, beq_iff_eq, beq_iff_eq, offer_full_iff]

end Subscription

namespace Bus

/-- What waits in the queue of a subscription. -/
def queueOf (b : Bus) (id : Nat) : List Message :=
  match b.subscription? id with
  | some s => s.queue
  | none => []

/-- The loop of a subscription has ended. -/
def Ended (b : Bus) (id : Nat) : Prop := ∃ s, b.subscription? id = some s ∧ s.listening = false

/-- How a bus keeps its subscriptions. -/
structure Sound (b : Bus) : Prop where
  ids : b.subscriptions.map Subscription.id = List.range' 1 b.subscriptions.length
  own : ∀ subject, ∀ id ∈ b.listed subject, ∃ s ∈ b.subscriptions, s.id = id ∧ s.subject = subject
  once : ∀ subject, (b.listed subject).Pairwise (· < ·)
  listed : ∀ s ∈ b.subscriptions, s.listening = true → s.id ∈ b.listed s.subject
  bounded : ∀ s ∈ b.subscriptions, s.queue.length ≤ b.capacity

/-- Nothing about the subscriptions changes. -/
structure SameQueues (b b' : Bus) : Prop where
  subscriptions : b'.subscriptions = b.subscriptions
  subjects : b'.subjects = b.subjects
  capacity : b'.capacity = b.capacity
  lead : b'.subjectPrefix = b.subjectPrefix

/-- What comes of a message that was offered to all on a subject. -/
structure Hands (b : Bus) (subject : String) (m : Message) (b' : Bus) : Prop where
  subscriptions : b'.subscriptions = b.subscriptions.map fun s => if s.takes b.capacity subject then s.push m else s
  listed : ∀ other, (b'.listed other).Sublist (b.listed other)
  /-- Nobody whose loop runs is taken off a list. -/
  kept : ∀ other, ∀ id ∈ b.listed other, b.isListening id = true → id ∈ b'.listed other
  capacity : b'.capacity = b.capacity
  lead : b'.subjectPrefix = b.subjectPrefix
  delivered : b'.stats.delivered = b.stats.delivered + b.subscriptions.countP (·.takes b.capacity subject)
  dropped : b'.stats.dropped = b.stats.dropped + b.subscriptions.countP (·.overflows b.capacity subject)

/-- What comes of a subscription that is made. -/
structure Joins (b : Bus) (agent topic : String) (s : Subscription) (b' : Bus) : Prop where
  named : ¬ (agent = "" ∨ topic = "")
  new : s = { id := b.subscriptions.length + 1, subject := b.subjectFor agent topic }
  subscriptions : b'.subscriptions = b.subscriptions ++ [s]
  listed : ∀ other, b'.listed other = if other = s.subject then b.listed other ++ [s.id] else b.listed other
  stats : b'.stats = b.stats
  capacity : b'.capacity = b.capacity
  lead : b'.subjectPrefix = b.subjectPrefix

variable {b b' : Bus} {s : Subscription} {id other : Nat} {m : Message} {subject : String}
  {f : Subscription → Subscription} {ids : List Nat}

/-! ## Subscriptions by their ids -/

theorem subscription?_mem (found : b.subscription? id = some s) : s ∈ b.subscriptions ∧ s.id = id :=
  ⟨List.mem_of_find?_eq_some found, by simpa using List.find?_some found⟩

theorem Sound.id_at (sound : b.Sound) {k : Nat} (here : b.subscriptions[k]? = some s) : s.id = k + 1 := by
  have place := congrArg (·[k]?) sound.ids
  simp only [List.getElem?_map, here] at place
  obtain ⟨_, own⟩ := List.getElem?_eq_some_iff.mp place.symm
  rw [← own, List.getElem_range']
  omega

theorem Sound.nodup (sound : b.Sound) : (b.subscriptions.map Subscription.id).Nodup :=
  sound.ids ▸ List.nodup_range' ..

theorem find?_of_nodup {l : List Subscription} (nodup : (l.map Subscription.id).Nodup) (there : s ∈ l) :
    l.find? (·.id = s.id) = some s := by
  induction l with
  | nil => cases there
  | cons t rest ih =>
    rw [List.map_cons, List.nodup_cons] at nodup
    rcases List.mem_cons.mp there with rfl | later
    · simp
    · have differ : t.id ≠ s.id := fun same => nodup.1 (same ▸ List.mem_map_of_mem later)
      rw [List.find?_cons_of_neg (by simpa using differ)]
      exact ih nodup.2 later

theorem Sound.subscription? (sound : b.Sound) (there : s ∈ b.subscriptions) : b.subscription? s.id = some s :=
  find?_of_nodup sound.nodup there

theorem Sound.queueOf (sound : b.Sound) (there : s ∈ b.subscriptions) : b.queueOf s.id = s.queue := by
  rw [Bus.queueOf, sound.subscription? there]

theorem Sound.isListening (sound : b.Sound) (there : s ∈ b.subscriptions) : b.isListening s.id = s.listening := by
  rw [Bus.isListening, sound.subscription? there]

theorem Sound.offerTo (sound : b.Sound) (there : s ∈ b.subscriptions) : b.offerTo s.id = s.offer b.capacity := by
  rw [Bus.offerTo, sound.subscription? there]

theorem subscription?_map (same : ∀ s, (f s).id = s.id) (mapped : b'.subscriptions = b.subscriptions.map f) :
    b'.subscription? id = (b.subscription? id).map f := by
  rw [Bus.subscription?, Bus.subscription?, mapped, List.find?_map]
  congr 2
  funext s
  simp [same]

theorem update_subscription? (same : ∀ s, (f s).id = s.id) :
    (b.update id f).subscription? other = (b.subscription? other).map fun s => if s.id = id then f s else s := by
  refine subscription?_map (fun s => ?_) rfl
  split
  · exact same s
  · rfl

theorem update_found (same : ∀ s, (f s).id = s.id) (known : b.subscription? id = some s) :
    (b.update id f).subscription? id = some (f s) := by
  rw [update_subscription? same, known, Option.map_some, if_pos (subscription?_mem known).2]

theorem update_elsewhere (same : ∀ s, (f s).id = s.id) (differ : other ≠ id) :
    (b.update id f).subscription? other = b.subscription? other := by
  rw [update_subscription? same]
  cases found : b.subscription? other with
  | none => rfl
  | some s =>
    have apart : s.id ≠ id := (subscription?_mem found).2 ▸ differ
    rw [Option.map_some, if_neg apart]

/-! ## A message to all who are listed -/

theorem update_offerTo (same : ∀ s, (f s).id = s.id) (differ : other ≠ id) :
    (b.update id f).offerTo other = b.offerTo other := by
  rw [offerTo, offerTo, update_elsewhere same differ]
  rfl

theorem handTo_offerTo (differ : other ≠ id) : (b.handTo m id).offerTo other = b.offerTo other := by
  unfold handTo
  split
  · exact update_offerTo (fun _ => rfl) differ
  · rfl
  · rfl

theorem handTo_subscriptions (b : Bus) (m : Message) (id : Nat) :
    (b.handTo m id).subscriptions =
      b.subscriptions.map fun s => if s.id = id ∧ b.offerTo id = .accepted then s.push m else s := by
  unfold handTo
  split <;> rename_i offer <;> simp [offer, Bus.update]

theorem handTo_rest (b : Bus) (m : Message) (id : Nat) :
    (b.handTo m id).subjects = b.subjects ∧ (b.handTo m id).capacity = b.capacity ∧
      (b.handTo m id).stats.delivered = b.stats.delivered ∧
      (b.handTo m id).stats.dropped = b.stats.dropped + if b.offerTo id = .full then 1 else 0 := by
  unfold handTo
  split <;> rename_i offer <;> simp [offer, Bus.update]

/-- Offering a message to some subscriptions, none of them twice. -/
theorem handed_subscriptions (b : Bus) (m : Message) (once : ids.Nodup) :
    (ids.foldl (fun b id => b.handTo m id) b).subscriptions =
      b.subscriptions.map fun s => if s.id ∈ ids ∧ b.offerTo s.id = .accepted then s.push m else s := by
  induction ids generalizing b with
  | nil => simp
  | cons id rest ih =>
    obtain ⟨fresh, once⟩ := List.nodup_cons.mp once
    rw [List.foldl_cons, ih _ once, handTo_subscriptions, List.map_map]
    refine List.map_congr_left fun s _ => ?_
    by_cases own : s.id = id
    · subst own
      by_cases accepted : b.offerTo s.id = .accepted <;> simp [accepted, fresh, Subscription.push]
    · simp [own, handTo_offerTo own]

theorem handed_rest (b : Bus) (m : Message) (once : ids.Nodup) :
    (ids.foldl (fun b id => b.handTo m id) b).subjects = b.subjects ∧
      (ids.foldl (fun b id => b.handTo m id) b).capacity = b.capacity ∧
      (ids.foldl (fun b id => b.handTo m id) b).stats.delivered = b.stats.delivered ∧
      (ids.foldl (fun b id => b.handTo m id) b).stats.dropped =
        b.stats.dropped + ids.countP (b.offerTo · = .full) := by
  induction ids generalizing b with
  | nil => simp
  | cons id rest ih =>
    obtain ⟨fresh, once⟩ := List.nodup_cons.mp once
    obtain ⟨subjects, capacity, delivered, dropped⟩ := handTo_rest b m id
    obtain ⟨subjects', capacity', delivered', dropped'⟩ := ih (b.handTo m id) once
    have offers : rest.countP ((b.handTo m id).offerTo · = .full) = rest.countP (b.offerTo · = .full) := by
      refine List.countP_congr fun other there => ?_
      have differ : other ≠ id := fun same => fresh (same ▸ there)
      rw [handTo_offerTo differ]
    refine ⟨subjects'.trans subjects, capacity'.trans capacity, delivered'.trans delivered, ?_⟩
    rw [List.foldl_cons, dropped', dropped, offers, List.countP_cons]
    simp only [decide_eq_true_eq]
    omega

theorem prune_listed (b : Bus) (subject other : String) (ids : List Nat) :
    (b.prune subject ids).listed other =
      if other = subject then (b.listed subject).filter (!ids.contains ·) else b.listed other := by
  unfold prune
  split
  · rename_i missing
    split
    · rename_i same
      simp [listed, same, missing]
    · rfl
  · rename_i before found
    have there : b.listed subject = before := by simp [listed, found]
    rw [there]
    split
    · rename_i nobody
      rw [listed, Table.get?_erase, nobody]
      split <;> rfl
    · rw [listed, Table.get?_insert]
      split <;> rfl

theorem pruned_listed (b : Bus) (subject other : String) (ids : List Nat) :
    (if ids.isEmpty then b else b.prune subject ids).listed other =
      if other = subject then (b.listed subject).filter (!ids.contains ·) else b.listed other := by
  split
  · rename_i none
    obtain rfl := List.isEmpty_iff.mp none
    have all : (b.listed subject).filter (!([] : List Nat).contains ·) = b.listed subject :=
      List.filter_eq_self.mpr fun _ _ => rfl
    rw [all]
    split
    · rename_i same
      rw [same]
    · rfl
  · exact prune_listed b subject other ids

theorem pruned_rest (b : Bus) (subject : String) (ids : List Nat) :
    (if ids.isEmpty then b else b.prune subject ids).subscriptions = b.subscriptions ∧
      (if ids.isEmpty then b else b.prune subject ids).capacity = b.capacity ∧
      (if ids.isEmpty then b else b.prune subject ids).stats = b.stats := by
  unfold prune
  split
  · exact ⟨rfl, rfl, rfl⟩
  · split
    · exact ⟨rfl, rfl, rfl⟩
    · split <;> exact ⟨rfl, rfl, rfl⟩

/-- Those who are listed on a subject and answer an offer so are those on the subject who answer it so. -/
theorem Sound.countP_listed (sound : b.Sound) (subject : String) {offer : Offer} (open' : offer ≠ .closed) :
    (b.listed subject).countP (b.offerTo · = offer) =
      b.subscriptions.countP fun s => s.subject == subject && s.offer b.capacity == offer := by
  have same : ((b.listed subject).filter (b.offerTo · = offer)).Perm
      ((b.subscriptions.filter fun s => s.subject == subject && s.offer b.capacity == offer).map Subscription.id) := by
    refine (List.perm_ext_iff_of_nodup ?_ ?_).mpr fun id => ?_
    · exact ((sound.once subject).imp Nat.ne_of_lt).filter _
    · exact sound.nodup.sublist (List.filter_sublist.map _)
    · simp only [List.mem_filter, List.mem_map, Bool.and_eq_true, beq_iff_eq, decide_eq_true_eq]
      constructor
      · rintro ⟨there, answer⟩
        obtain ⟨s, known, rfl, on⟩ := sound.own subject id there
        exact ⟨s, ⟨known, on, sound.offerTo known ▸ answer⟩, rfl⟩
      · rintro ⟨s, ⟨known, rfl, answer⟩, rfl⟩
        have listening : s.listening = true := by
          cases ended : s.listening with
          | true => rfl
          | false => exact absurd (answer.symm.trans (Subscription.offer_closed_iff.mpr ended)) open'
        exact ⟨sound.listed s known listening, (sound.offerTo known).trans answer⟩
  rw [List.countP_eq_length_filter, same.length_eq, List.length_map, List.countP_eq_length_filter]

theorem Sound.takes_iff (sound : b.Sound) (there : s ∈ b.subscriptions) :
    s.id ∈ b.listed subject ∧ b.offerTo s.id = .accepted ↔ s.takes b.capacity subject = true := by
  rw [Subscription.takes, Bool.and_eq_true, beq_iff_eq, beq_iff_eq, sound.offerTo there]
  refine and_congr_left fun accepted => ⟨fun listed => ?_, ?_⟩
  · obtain ⟨t, known, same, on⟩ := sound.own subject s.id listed
    have found := sound.subscription? known
    rw [same, sound.subscription? there] at found
    cases found
    exact on
  · rintro rfl
    exact sound.listed s there (Subscription.offer_accepted_iff.mp accepted).1

theorem offerTo_closed_iff : b.offerTo id = .closed ↔ b.isListening id = false := by
  unfold offerTo isListening
  split
  · exact Subscription.offer_closed_iff
  · simp

theorem Sound.handToAll_taken (sound : b.Sound) (subject : String) (m : Message) :
    (b.handToAll subject m).1 = b.subscriptions.countP (·.takes b.capacity subject) :=
  List.countP_eq_length_filter.symm.trans (sound.countP_listed subject (by decide))

theorem handToAll_hands (sound : b.Sound) (subject : String) (m : Message) :
    Hands b subject m (b.handToAll subject m).2 := by
  have lead := (handToAll_same b subject m).lead
  have once : (b.listed subject).Nodup := (sound.once subject).imp Nat.ne_of_lt
  have subscriptions := handed_subscriptions b m once
  obtain ⟨subjects, capacity, delivered, dropped⟩ := handed_rest b m once
  have taken : ((b.listed subject).filter fun id => b.offerTo id == .accepted).length =
      b.subscriptions.countP (·.takes b.capacity subject) := sound.handToAll_taken subject m
  -- Those who are taken off the list are just those who do not listen, by what they answered before anything was put
  -- into a queue.
  have open' : ∀ id ∈ b.listed subject,
      (!((b.listed subject).filter fun id => b.offerTo id == .closed).contains id) = b.isListening id := by
    intro id there
    rw [Bool.eq_iff_iff]
    simp [there, offerTo_closed_iff]
  unfold handToAll at lead ⊢
  dsimp only at lead ⊢
  rw [taken] at lead ⊢
  generalize ((b.listed subject).filter fun id => b.offerTo id == .closed) = closed at *
  generalize (b.listed subject).foldl (fun b id => b.handTo m id) b = handed at *
  have listed : ∀ other, handed.listed other = b.listed other := fun other => by rw [Bus.listed, subjects, Bus.listed]
  have listed' := fun other => pruned_listed handed subject other closed
  obtain ⟨subscriptions', capacity', stats'⟩ := pruned_rest handed subject closed
  generalize (if closed.isEmpty then handed else handed.prune subject closed) = b' at *
  have rest : ∀ other, (b'.countDelivered (b.subscriptions.countP (·.takes b.capacity subject))).listed other =
      if other = subject then (b.listed subject).filter b.isListening else b.listed other := by
    intro other
    rw [← List.filter_congr open', ← listed subject, ← listed other, ← listed']
    rfl
  refine ⟨?_, fun other => ?_, fun other id there listening => ?_, capacity'.trans capacity, lead, ?_, ?_⟩
  · rw [show (b'.countDelivered _).subscriptions = b'.subscriptions from rfl, subscriptions', subscriptions]
    refine List.map_congr_left fun s there => ?_
    simp only [sound.takes_iff there]
  · rw [rest]
    split
    · rename_i same
      exact same ▸ List.filter_sublist
    · exact List.Sublist.refl _
  · rw [rest]
    split
    · rename_i same
      exact List.mem_filter.mpr ⟨same ▸ there, listening⟩
    · exact there
  · rw [show (b'.countDelivered _).stats.delivered = b'.stats.delivered + _ from rfl, stats', delivered]
  · rw [show (b'.countDelivered _).stats.dropped = b'.stats.dropped from rfl, stats', dropped,
      sound.countP_listed subject (by decide)]
    rfl

/-! ## Sound buses stay sound -/

/-- The loop of a subscription may end and its queue may change, but not who it is. -/
structure Keeps (f : Subscription → Subscription) : Prop where
  id : ∀ s, (f s).id = s.id
  subject : ∀ s, (f s).subject = s.subject
  listening : ∀ s, (f s).listening = true → s.listening = true

/-- No subscription is made, and nobody whose loop runs is taken off a list. -/
structure Thins (b b' : Bus) : Prop where
  mapped : ∃ f, Keeps f ∧ b'.subscriptions = b.subscriptions.map f ∧
    ∀ s ∈ b.subscriptions, (f s).queue.length ≤ b'.capacity
  listed : ∀ subject, (b'.listed subject).Sublist (b.listed subject)
  kept : ∀ subject, ∀ id ∈ b.listed subject, b.isListening id = true → id ∈ b'.listed subject

theorem Keeps.same : Keeps fun s => s := ⟨fun _ => rfl, fun _ => rfl, fun _ listening => listening⟩

theorem Keeps.ite {p : Subscription → Prop} [DecidablePred p] (keeps : Keeps f) :
    Keeps fun s => if p s then f s else s := by
  refine ⟨fun s => ?_, fun s => ?_, fun s => ?_⟩
  · split
    · exact keeps.id s
    · rfl
  · split
    · exact keeps.subject s
    · rfl
  · split
    · exact keeps.listening s
    · exact fun listening => listening

theorem Keeps.push (m : Message) : Keeps (·.push m) := ⟨fun _ => rfl, fun _ => rfl, fun _ listening => listening⟩

theorem Thins.sound (thins : Thins b b') (sound : b.Sound) : b'.Sound := by
  obtain ⟨⟨f, keeps, mapped, bounded⟩, listed, kept⟩ := thins
  refine ⟨?_, fun subject id there => ?_, fun subject => (sound.once subject).sublist (listed subject),
    fun s there listening => ?_, fun s there => ?_⟩
  · rw [mapped, List.map_map, List.length_map, ← sound.ids]
    exact List.map_congr_left fun s _ => keeps.id s
  · obtain ⟨s, known, same, on⟩ := sound.own subject id ((listed subject).subset there)
    exact ⟨f s, mapped ▸ List.mem_map_of_mem known, (keeps.id s).trans same, (keeps.subject s).trans on⟩
  · rw [mapped] at there
    obtain ⟨s, known, rfl⟩ := List.mem_map.mp there
    have before := keeps.listening s listening
    rw [keeps.id, keeps.subject]
    exact kept s.subject s.id (sound.listed s known before) ((sound.isListening known).trans before)
  · rw [mapped] at there
    obtain ⟨s, known, rfl⟩ := List.mem_map.mp there
    exact bounded s known

theorem Sound.thins (sound : b.Sound) (subscriptions : b'.subscriptions = b.subscriptions)
    (capacity : b'.capacity = b.capacity) (listed : ∀ subject, (b'.listed subject).Sublist (b.listed subject))
    (kept : ∀ subject, ∀ id ∈ b.listed subject, b.isListening id = true → id ∈ b'.listed subject) : Thins b b' := by
  refine ⟨⟨_, .same, ?_, fun s there => ?_⟩, listed, kept⟩
  · rw [subscriptions, List.map_id']
  · rw [capacity]
    exact sound.bounded s there

theorem SameQueues.thins (same : SameQueues b b') (sound : b.Sound) : Thins b b' := by
  have listed : ∀ subject, b'.listed subject = b.listed subject := fun subject => by
    rw [Bus.listed, same.subjects, Bus.listed]
  exact sound.thins same.subscriptions same.capacity (fun subject => listed subject ▸ List.Sublist.refl _)
    fun subject _ there _ => listed subject ▸ there

theorem SameQueues.sound (same : SameQueues b b') (sound : b.Sound) : b'.Sound := (same.thins sound).sound sound

theorem Hands.thins (hands : Hands b subject m b') (sound : b.Sound) : Thins b b' := by
  refine ⟨⟨_, .ite (.push m), hands.subscriptions, fun s there => ?_⟩, hands.listed, hands.kept⟩
  rw [hands.capacity]
  split
  · rename_i takes
    rw [Subscription.push, List.length_append]
    exact (Subscription.takes_iff.mp takes).2.2
  · exact sound.bounded s there

theorem Hands.sound (hands : Hands b subject m b') (sound : b.Sound) : b'.Sound := (hands.thins sound).sound sound

theorem update_thins (sound : b.Sound) (keeps : Keeps f)
    (shorter : ∀ s ∈ b.subscriptions, s.id = id → (f s).queue.length ≤ s.queue.length) :
    Thins b (b.update id f) := by
  refine ⟨⟨_, keeps.ite (p := fun s => s.id = id), rfl, fun s there => ?_⟩, fun _ => List.Sublist.refl _,
    fun _ _ there _ => there⟩
  have bound := sound.bounded s there
  split
  · rename_i own
    exact Nat.le_trans (shorter s there own) bound
  · exact bound

theorem subscribe_joins {agent topic : String} (done : b.subscribe agent topic = .ok (s, b')) :
    Joins b agent topic s b' := by
  unfold subscribe at done
  split at done
  · cases done
  · rename_i named
    cases done
    refine ⟨named, rfl, rfl, fun other => ?_, rfl, rfl, rfl⟩
    rw [Bus.listed, Table.get?_insert]
    split
    · rename_i same
      rw [same]
      rfl
    · rfl

theorem Sound.listed_below (sound : b.Sound) (there : id ∈ b.listed subject) : id < b.subscriptions.length + 1 := by
  obtain ⟨s, known, rfl, _⟩ := sound.own subject id there
  have place := sound.ids ▸ List.mem_map_of_mem known
  have bounds := List.mem_range'_1.mp place
  omega

theorem Joins.sound {agent topic : String} (joins : Joins b agent topic s b') (sound : b.Sound) : b'.Sound := by
  obtain ⟨_, rfl, subscriptions, listed, _, capacity, _⟩ := joins
  refine ⟨?_, fun subject id there => ?_, fun subject => ?_, fun s there listening => ?_, fun s there => ?_⟩
  · rw [subscriptions, List.map_append, sound.ids, List.length_append, List.length_singleton, List.range'_1_concat,
      Nat.add_comm 1]
    rfl
  · have kept : ∀ id ∈ b.listed subject, ∃ s ∈ b'.subscriptions, s.id = id ∧ s.subject = subject := by
      intro id earlier
      obtain ⟨s, known, same, on⟩ := sound.own subject id earlier
      exact ⟨s, subscriptions ▸ List.mem_append_left _ known, same, on⟩
    rw [listed] at there
    split at there
    · rename_i same
      rcases List.mem_append.mp there with earlier | last
      · exact kept id earlier
      · exact ⟨_, subscriptions ▸ List.mem_append_right _ (.head _), (List.mem_singleton.mp last).symm, same.symm⟩
    · exact kept id there
  · rw [listed]
    split
    · refine List.pairwise_append.mpr ⟨sound.once subject, List.pairwise_singleton _ _, fun id there id' last => ?_⟩
      exact List.mem_singleton.mp last ▸ sound.listed_below there
    · exact sound.once subject
  · rw [listed]
    rw [subscriptions] at there
    rcases List.mem_append.mp there with earlier | last
    · have known := sound.listed s earlier listening
      split
      · exact List.mem_append_left _ known
      · exact known
    · obtain rfl := List.mem_singleton.mp last
      rw [if_pos rfl]
      exact List.mem_append_right _ (.head _)
  · rw [capacity]
    rw [subscriptions] at there
    rcases List.mem_append.mp there with earlier | last
    · exact sound.bounded s earlier
    · obtain rfl := List.mem_singleton.mp last
      exact Nat.zero_le _

theorem Joins.subscription? {agent topic : String} (joins : Joins b agent topic s b') (id : Nat) :
    b'.subscription? id = (b.subscription? id).or (if s.id = id then some s else none) := by
  rw [Bus.subscription?, joins.subscriptions, List.find?_append, Bus.subscription?]
  congr 1
  by_cases own : s.id = id <;> simp [own]

theorem unsubscribe_thins (sound : b.Sound) (id : Nat) : Thins b (b.unsubscribe id) :=
  update_thins sound ⟨fun _ => rfl, fun _ => rfl, fun _ listening => listening⟩ fun _ _ _ => Nat.le_refl _

theorem close_thins (sound : b.Sound) (id : Nat) : Thins b (b.close id) := by
  refine update_thins sound ⟨fun s => ?_, fun s => ?_, fun s => ?_⟩ fun s _ _ => ?_
  all_goals split
  all_goals first | exact Nat.zero_le _ | exact Nat.le_refl _ | rfl | exact fun listening => listening | exact nofun

theorem receive_some (done : b.receive id = some (m, b')) :
    ∃ s rest, b.subscription? id = some s ∧ s.listening = true ∧ s.queue = m :: rest ∧
      b' = b.update id fun s => { s with queue := rest } := by
  unfold receive at done
  split at done
  · rename_i s found
    split at done
    · rename_i first rest queued
      split at done
      · rename_i listening
        cases done
        exact ⟨s, rest, found, listening, queued, rfl⟩
      · cases done
    · cases done
  · cases done

theorem receive_thins (sound : b.Sound) (done : b.receive id = some (m, b')) : Thins b b' := by
  obtain ⟨s, rest, found, _, queued, rfl⟩ := receive_some done
  refine update_thins sound ⟨fun _ => rfl, fun _ => rfl, fun _ listening => listening⟩ fun t there own => ?_
  rw [← own, sound.subscription? there] at found
  cases found
  rw [queued]
  exact Nat.le_succ _

/-- The first message of one queue is taken, and the other queues stay as they are. -/
theorem receive_queues (done : b.receive id = some (m, b')) :
    b.queueOf id = m :: b'.queueOf id ∧ ∀ other, other ≠ id → b'.queueOf other = b.queueOf other := by
  obtain ⟨s, rest, known, _, queued, rfl⟩ := receive_some done
  have same : ∀ s : Subscription, ({ s with queue := rest } : Subscription).id = s.id := fun _ => rfl
  constructor
  · rw [queueOf, known, queueOf, update_found same known]
    exact queued
  · intro other differ
    rw [queueOf, update_elsewhere same differ, queueOf]

end Bus
end Handover
