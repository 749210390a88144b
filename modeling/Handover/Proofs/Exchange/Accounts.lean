import Mathlib.Algebra.GroupWithZero.Nat
import Handover.Proofs.Exchange.History

/-!
# The accounts of a bus

For each subscription, what its queue accepted is what was handled, followed by what still waits. The counts of the bus
are the sums over the subscriptions and over the replies.
-/

namespace Handover

namespace Bus
variable {b b' : Bus} {t : Traffic} {id : Nat} {s : Subscription} {f : Subscription → Subscription} {m : Message}
  {subject : String}

theorem queueOf_found (found : b.subscription? id = some s) : b.queueOf id = s.queue := by
  rw [queueOf, found]

theorem queueOf_missing (missing : b.subscription? id = none) : b.queueOf id = [] := by
  rw [queueOf, missing]

theorem ended_iff (found : b.subscription? id = some s) : b.Ended id ↔ s.listening = false := by
  constructor
  · rintro ⟨t, found', ended⟩
    cases found.symm.trans found'
    exact ended
  · exact fun ended => ⟨s, found, ended⟩

theorem not_ended_missing (missing : b.subscription? id = none) : ¬ b.Ended id :=
  fun ⟨_, found, _⟩ => nomatch missing.symm.trans found

theorem SameQueues.subscription? (same : SameQueues b b') (id : Nat) : b'.subscription? id = b.subscription? id := by
  rw [Bus.subscription?, same.subscriptions, Bus.subscription?]

theorem Hands.subscription? (hands : Hands b subject m b') (id : Nat) :
    b'.subscription? id = (b.subscription? id).map fun s => if s.takes b.capacity subject then s.push m else s := by
  refine subscription?_map (fun s => ?_) hands.subscriptions
  split <;> rfl

/-- A count over enough ids is one over the subscriptions, if it counts no others. -/
theorem Sound.countP_ids (sound : b.Sound) {n : Nat} (enough : b.subscriptions.length ≤ n) {q : Nat → Bool}
    (known : ∀ id, q id = true → ∃ s, b.subscription? id = some s) :
    (List.range' 1 n).countP q = b.subscriptions.countP fun s => q s.id := by
  have parts : List.range' 1 n = List.range' 1 b.subscriptions.length ++
      List.range' (1 + b.subscriptions.length) (n - b.subscriptions.length) := by
    rw [List.range'_append_1, Nat.add_sub_cancel' enough]
  have beyond : (List.range' (1 + b.subscriptions.length) (n - b.subscriptions.length)).countP q = 0 := by
    refine List.countP_eq_zero.mpr fun id there counted => ?_
    obtain ⟨s, found⟩ := known id counted
    obtain ⟨there', rfl⟩ := subscription?_mem found
    have within := sound.ids ▸ List.mem_map_of_mem there'
    have low := (List.mem_range'_1.mp there).1
    have high := (List.mem_range'_1.mp within).2
    omega
  rw [parts, List.countP_append, beyond, ← sound.ids, List.countP_map]
  rfl

/-- A bus with its settings, on which no subscription has a subject that looks like an inbox. -/
structure Regular (b : Bus) (config : BusConfig) : Prop where
  sound : b.Sound
  capacity : b.capacity = max 1 config.channelCapacity
  lead : b.subjectPrefix = config.subjectPrefix
  plain : ∀ s ∈ b.subscriptions, isInbox s.subject = false

theorem ofConfig_regular (config : BusConfig) : (ofConfig config).Regular config :=
  ⟨⟨rfl, nofun, fun _ => .nil, nofun, nofun⟩, rfl, rfl, nofun⟩

theorem Stirs.regular {config : BusConfig} (stirs : b.Stirs t b') (regular : b.Regular config)
    (plain : t.Plain config.subjectPrefix) : b'.Regular config := by
  obtain ⟨capacity, lead⟩ := stirs.settings
  refine ⟨stirs.sound regular.sound, capacity.trans regular.capacity, lead.trans regular.lead, fun s there => ?_⟩
  have subject := List.mem_map_of_mem (f := Subscription.subject) there
  rw [stirs.subjects] at subject
  rcases List.mem_append.mp subject with earlier | new
  · obtain ⟨s', there', same⟩ := List.mem_map.mp earlier
    exact same ▸ regular.plain s' there'
  · obtain ⟨address, named, same⟩ := List.mem_map.mp new
    rw [← same, subjectFor, regular.lead]
    cases t with
    | subscribe agent topic =>
      dsimp only [Traffic.address?] at named
      split at named
      · cases named
      · cases List.mem_singleton.mp named
        exact plain
    | _ => cases named

end Bus

namespace Passing

/-- A thing that happened to a sound bus, as it may. -/
structure Proper (p : Passing) : Prop where
  sound : p.before.Sound
  stirs : p.before.Stirs p.event p.after

/-- What may happen to one queue. -/
inductive Flow (p : Passing) (id : Nat) : Prop where
  | same (queue : p.after.queueOf id = p.before.queueOf id) (ended : p.after.Ended id ↔ p.before.Ended id)
      (handled : p.handled? id = none) : Flow p id
  | came (queue : p.after.queueOf id = p.before.queueOf id ++ [m]) (alive : ¬ p.before.Ended id)
      (sent : p.sentTo? id = some m) (handled : p.handled? id = none) : Flow p id
  | went (queue : p.before.queueOf id = m :: p.after.queueOf id) (alive : ¬ p.before.Ended id)
      (handled : p.handled? id = some m) : Flow p id
  | lost (queue : p.after.queueOf id = []) (ended : p.after.Ended id) (handled : p.handled? id = none) : Flow p id

variable {p : Passing} {id : Nat} {m : Message} {s s' : Subscription}

theorem handled?_none (idle : ∀ other, p.event = .receive other → other = id → p.before.receive id = none) :
    p.handled? id = none := by
  unfold handled?
  split
  · rename_i other receives
    split
    · rename_i own
      rw [idle other receives own]
      rfl
    · rfl
  · rfl

theorem handled?_of_sent (sent : p.sent? = some message) : p.handled? id = none :=
  handled?_none fun other receives _ => absurd receives ((Traffic.sent?_alone sent).2 other)

theorem Flow.kept (known : p.before.subscription? id = some s) (found : p.after.subscription? id = some s')
    (queue : s'.queue = s.queue) (listening : s'.listening = s.listening) (handled : p.handled? id = none) :
    p.Flow id := by
  refine .same ?_ ?_ handled
  · rw [Bus.queueOf_found found, Bus.queueOf_found known, queue]
  · rw [Bus.ended_iff found, Bus.ended_iff known, listening]

theorem Flow.unknown (missing : p.before.subscription? id = none) (queue : p.after.queueOf id = [])
    (alive : ¬ p.after.Ended id) (handled : p.handled? id = none) : p.Flow id := by
  refine .same ?_ ?_ handled
  · rw [queue, Bus.queueOf_missing missing]
  · exact iff_of_false alive (Bus.not_ended_missing missing)

theorem Proper.flow_unknown (proper : p.Proper) (missing : p.before.subscription? id = none) : p.Flow id := by
  obtain ⟨sound, stirs⟩ := proper
  have idle : p.handled? id = none := handled?_none fun _ _ _ => by rw [Bus.receive, missing]
  have absent : p.after.subscription? id = none → p.Flow id := fun gone =>
    .unknown missing (Bus.queueOf_missing gone) (Bus.not_ended_missing gone) idle
  obtain ⟨before, event, after⟩ := p
  dsimp only at sound stirs missing absent
  have updated : ∀ {f : Subscription → Subscription} (other : Nat), (∀ s, (f s).id = s.id) →
      (before.update other f).subscription? id = none := by
    intro f other same
    rw [Bus.update_subscription? same, missing, Option.map_none]
  cases stirs with
  | still _ _ _ calm => exact absent ((calm.queues.subscription? id).trans missing)
  | joined joins =>
    have found := joins.subscription? id
    rw [missing, Option.none_or, joins.new] at found
    split at found
    · exact .unknown missing (Bus.queueOf_found found) (fun ended => nomatch (Bus.ended_iff found).mp ended) idle
    · exact absent found
  | gaveUp other => exact absent (updated other fun _ => rfl)
  | took done =>
    obtain ⟨s, rest, _, _, _, rfl⟩ := Bus.receive_some done
    exact absent (updated _ fun _ => rfl)
  | ended other => exact absent (updated other fun s => by split <;> rfl)
  | handed _ _ hands => exact absent (by rw [hands.subscription?, missing, Option.map_none])
  | posted _ _ queues _ => exact absent ((queues.subscription? id).trans missing)

theorem Proper.flow_known (proper : p.Proper) (known : p.before.subscription? id = some s) : p.Flow id := by
  obtain ⟨sound, stirs⟩ := proper
  have own : s.id = id := (Bus.subscription?_mem known).2
  obtain ⟨before, event, after⟩ := p
  dsimp only at sound stirs known
  cases stirs with
  | still _ _ idle calm =>
    refine .kept known ((calm.queues.subscription? id).trans known) rfl rfl (handled?_none ?_)
    rintro other receives rfl
    exact idle other receives
  | joined joins =>
    refine .kept known ?_ rfl rfl rfl
    rw [joins.subscription?, known, Option.some_or]
  | gaveUp other =>
    have found : (before.update other _).subscription? id = _ := Bus.update_subscription?
      (f := fun s => { s with active := false }) fun _ => rfl
    rw [known, Option.map_some] at found
    refine .kept known found ?_ ?_ rfl
    · split <;> rfl
    · split <;> rfl
  | took done =>
    rename_i m other
    obtain ⟨t, rest, known', listening, queued, rfl⟩ := Bus.receive_some done
    have found : (before.update other _).subscription? id = _ := Bus.update_subscription?
      (f := fun s => { s with queue := rest }) fun _ => rfl
    rw [known, Option.map_some] at found
    split at found
    · rename_i here
      obtain rfl := own.symm.trans here
      cases known.symm.trans known'
      refine .went (m := m) ?_ ?_ ?_
      · rw [Bus.queueOf_found known, Bus.queueOf_found found, queued]
      · exact fun ended => nomatch listening.symm.trans ((Bus.ended_iff known).mp ended)
      · simp [handled?, done]
    · rename_i elsewhere
      exact .kept known found rfl rfl (if_neg fun here => elsewhere (own.trans here.symm))
  | ended other =>
    have found : (before.update other _).subscription? id = _ := Bus.update_subscription?
      (f := fun s => if s.active then s else { s with listening := false, queue := [] }) fun s => by split <;> rfl
    rw [known, Option.map_some] at found
    split at found
    · split at found
      · exact .kept known found rfl rfl rfl
      · exact .lost (Bus.queueOf_found found) ⟨_, found, rfl⟩ rfl
    · exact .kept known found rfl rfl rfl
  | handed sent _ hands =>
    rename_i subject m _
    have idle : (Passing.mk before event after).handled? id = none := handled?_of_sent sent
    have found := hands.subscription? id
    rw [known, Option.map_some] at found
    split at found
    · rename_i takes
      obtain ⟨on, listening, _⟩ := Subscription.takes_iff.mp takes
      refine .came (m := m) ?_ ?_ ?_ idle
      · exact (Bus.queueOf_found found).trans (by rw [Bus.queueOf_found known]; rfl)
      · exact fun ended => nomatch listening.symm.trans ((Bus.ended_iff known).mp ended)
      · simp [sentTo?, sent?, known, sent, on]
    · exact .kept known found rfl rfl idle
  | posted sent _ queues _ =>
    exact .kept known ((queues.subscription? id).trans known) rfl rfl
      (handled?_of_sent (p := ⟨before, event, after⟩) sent)

theorem Proper.flow (proper : p.Proper) (id : Nat) : p.Flow id := by
  cases known : p.before.subscription? id with
  | none => exact proper.flow_unknown known
  | some s => exact proper.flow_known known

theorem accepted?_none (shorter : (p.after.queueOf id).length ≤ (p.before.queueOf id).length) :
    p.accepted? id = none :=
  if_neg (Nat.not_lt.mpr shorter)

theorem accepted?_some (queue : p.after.queueOf id = p.before.queueOf id ++ [m]) : p.accepted? id = some m := by
  rw [accepted?, queue, List.getLast?_concat, List.length_append, List.length_singleton]
  exact if_pos (Nat.lt_succ_self _)

theorem Proper.accepted?_sentTo? (proper : p.Proper) (accepted : p.accepted? id = some m) : p.sentTo? id = some m := by
  cases proper.flow id with
  | same queue => exact nomatch (accepted?_none (queue ▸ Nat.le_refl _)).symm.trans accepted
  | came queue _ sent =>
    cases (accepted?_some queue).symm.trans accepted
    exact sent
  | went queue => exact nomatch (accepted?_none (by rw [queue]; exact Nat.le_succ _)).symm.trans accepted
  | lost queue => exact nomatch (accepted?_none (by rw [queue]; exact Nat.zero_le _)).symm.trans accepted

/-- A message that a queue holds or accepts is taken from its front, or stays, unless the loop ends. -/
theorem Proper.balance (proper : p.Proper) (id : Nat) :
    p.before.queueOf id ++ (p.accepted? id).toList = (p.handled? id).toList ++ p.after.queueOf id ∨
      p.after.Ended id ∧ p.handled? id = none := by
  cases proper.flow id with
  | same queue _ idle =>
    left
    rw [idle, accepted?_none (queue ▸ Nat.le_refl _), queue, Option.toList_none, List.append_nil, List.nil_append]
  | came queue _ _ idle =>
    left
    rw [idle, accepted?_some queue, queue]
    rfl
  | went queue _ took =>
    left
    rw [took, accepted?_none (by rw [queue]; exact Nat.le_succ _), queue, Option.toList_none, List.append_nil]
    rfl
  | lost _ ended idle => exact .inr ⟨ended, idle⟩

/-- The loop that has ended handles nothing more, and does not start again. -/
theorem Proper.ended (proper : p.Proper) (ended : p.before.Ended id) : p.after.Ended id ∧ p.handled? id = none := by
  cases proper.flow id with
  | same _ kept handled => exact ⟨kept.mpr ended, handled⟩
  | came _ alive => exact absurd ended alive
  | went _ alive => exact absurd ended alive
  | lost _ after handled => exact ⟨after, handled⟩

/-- As `Proper`, on a bus with its settings on which no subject of an agent looks like an inbox. -/
structure Usual (config : BusConfig) (p : Passing) : Prop where
  regular : p.before.Regular config
  stirs : p.before.Stirs p.event p.after
  ordinary : p.event.Ordinary config.subjectPrefix

theorem Usual.proper {config : BusConfig} (usual : p.Usual config) : p.Proper := ⟨usual.regular.sound, usual.stirs⟩

/-! ## Refusals -/

theorem sentTo?_some (sent : p.sentTo? id = some m) :
    ∃ s, p.before.subscription? id = some s ∧ p.sent? = some (s.subject, m) := by
  unfold sentTo? at sent
  split at sent
  · rename_i s subject m' known sent'
    split at sent
    · rename_i on
      cases sent
      exact ⟨s, known, on ▸ sent'⟩
    · cases sent
  · cases sent

/-- Nothing is sent to a subscription if it goes to the subject of none. -/
theorem sentTo?_none (elsewhere : ∀ s ∈ p.before.subscriptions, ∀ m, p.sent? ≠ some (s.subject, m)) :
    p.sentTo? id = none := by
  cases sentTo : p.sentTo? id with
  | none => rfl
  | some m =>
    obtain ⟨s, known, sent⟩ := sentTo?_some sentTo
    exact absurd sent (elsewhere s (Bus.subscription?_mem known).1 m)

/-- What is sent to a subscription is offered to it. -/
theorem Usual.offered (usual : p.Usual config) (sent : p.sentTo? id = some m) :
    ∃ s, p.before.subscription? id = some s ∧ p.before.Hands s.subject m p.after := by
  obtain ⟨s, known, sent⟩ := sentTo?_some sent
  have plain := usual.regular.plain s (Bus.subscription?_mem known).1
  rcases usual.stirs.sent sent with ⟨_, hands⟩ | ⟨own, _, _⟩
  · exact ⟨s, known, hands⟩
  · exact nomatch plain.symm.trans own

/-- A queue refuses a message only if its loop has ended, or if it is full. -/
theorem Usual.refused (usual : p.Usual config) (sent : p.sentTo? id = some m) (refused : p.accepted? id = none) :
    p.before.Ended id ∨ (p.before.queueOf id).length = max 1 config.channelCapacity := by
  obtain ⟨s, known, hands⟩ := usual.offered sent
  have found := hands.subscription? id
  rw [known, Option.map_some] at found
  split at found
  · have queue : p.after.queueOf id = p.before.queueOf id ++ [m] := by
      rw [Bus.queueOf_found found, Bus.queueOf_found known, Subscription.push]
    cases refused.symm.trans (accepted?_some queue)
  · rename_i closed
    have bounded := usual.regular.sound.bounded s (Bus.subscription?_mem known).1
    rw [Subscription.takes_iff] at closed
    cases listening : s.listening with
    | false => exact .inl ⟨s, known, listening⟩
    | true =>
      have full : ¬ s.queue.length < p.before.capacity := fun room => closed ⟨rfl, listening, room⟩
      rw [Bus.queueOf_found known, ← usual.regular.capacity]
      exact .inr (by omega)

/-! ## The counts -/

theorem sentTo?_known (sent : (p.sentTo? id).isSome = true) : ∃ s, p.before.subscription? id = some s := by
  obtain ⟨m, sent⟩ := Option.isSome_iff_exists.mp sent
  obtain ⟨s, known, _⟩ := sentTo?_some sent
  exact ⟨s, known⟩

theorem Proper.accepted?_isSome (proper : p.Proper) (accepted : (p.accepted? id).isSome = true) :
    (p.sentTo? id).isSome = true := by
  obtain ⟨m, accepted⟩ := Option.isSome_iff_exists.mp accepted
  rw [proper.accepted?_sentTo? accepted]
  rfl

theorem overflow?_isSome (overflow : (p.overflow? id).isSome = true) : (p.sentTo? id).isSome = true := by
  unfold overflow? at overflow
  split at overflow
  · exact overflow
  · cases overflow

/-- What a thing that happens adds to the counts, if the subscriptions have these ids. -/
structure Counted (p : Passing) (ids : List Nat) : Prop where
  delivered : p.after.stats.delivered =
    p.before.stats.delivered + ids.countP (fun id => (p.accepted? id).isSome) + if p.fills then 1 else 0
  dropped : p.after.stats.dropped =
    p.before.stats.dropped + ids.countP (fun id => (p.overflow? id).isSome) + if p.misses then 1 else 0

/-- Nothing was sent to any subscription. -/
theorem Proper.unsent (proper : p.Proper) (unsent : ∀ id, p.sentTo? id = none) (ids : List Nat) :
    ids.countP (fun id => (p.accepted? id).isSome) = 0 ∧ ids.countP (fun id => (p.overflow? id).isSome) = 0 := by
  constructor
  · refine List.countP_eq_zero.mpr fun id _ accepted => ?_
    have sent := proper.accepted?_isSome accepted
    rw [unsent id] at sent
    cases sent
  · refine List.countP_eq_zero.mpr fun id _ overflow => ?_
    have sent := overflow?_isSome overflow
    rw [unsent id] at sent
    cases sent

theorem Proper.handed_accepted? (proper : p.Proper) (hands : p.before.Hands subject m p.after)
    (there : s ∈ p.before.subscriptions) :
    (p.accepted? s.id).isSome = s.takes p.before.capacity subject := by
  have known := proper.sound.subscription? there
  have found := hands.subscription? s.id
  rw [known, Option.map_some] at found
  split at found
  · rename_i takes
    have queue : p.after.queueOf s.id = p.before.queueOf s.id ++ [m] := by
      rw [Bus.queueOf_found found, Bus.queueOf_found known, Subscription.push]
    rw [accepted?_some queue, takes]
    rfl
  · rename_i refuses
    have queue : p.after.queueOf s.id = p.before.queueOf s.id := by
      rw [Bus.queueOf_found found, Bus.queueOf_found known]
    rw [accepted?_none (queue ▸ Nat.le_refl _), Bool.eq_false_iff.mpr refuses]
    rfl

theorem Proper.handed_overflow? (proper : p.Proper) (sent : p.sent? = some (subject, m))
    (hands : p.before.Hands subject m p.after) (there : s ∈ p.before.subscriptions) :
    (p.overflow? s.id).isSome = s.overflows p.before.capacity subject := by
  have accepted := proper.handed_accepted? hands there
  have known := proper.sound.subscription? there
  have listening := proper.sound.isListening there
  rw [Bool.eq_iff_iff, Subscription.overflows_iff, overflow?, sentTo?, known, sent, listening]
  dsimp only
  by_cases on : s.subject = subject
  · have refuses : (p.accepted? s.id).isNone = true ↔ ¬ (s.listening = true ∧ s.queue.length < p.before.capacity) := by
      rw [← Option.not_isSome, accepted, Bool.not_eq_true', ← Bool.not_eq_true, Subscription.takes_iff]
      simp [on]
    cases alive : s.listening <;> simp [alive, on, refuses]
  · simp [on]

/-- What goes to an ordinary subject is counted at the subscriptions. -/
theorem Proper.counted_handed (proper : p.Proper) (enough : p.before.subscriptions.length ≤ n)
    (sent : p.sent? = some (subject, m)) (ordinary : Bus.isInbox subject = false)
    (hands : p.before.Hands subject m p.after) : p.Counted (List.range' 1 n) := by
  have nowhere : p.inbox? = none := by
    rw [inbox?, sent]
    simp [ordinary]
  have accepted : p.before.subscriptions.countP (·.takes p.before.capacity subject) =
      p.before.subscriptions.countP fun s => (p.accepted? s.id).isSome :=
    List.countP_congr fun s there => by rw [proper.handed_accepted? hands there]
  have overflow : p.before.subscriptions.countP (·.overflows p.before.capacity subject) =
      p.before.subscriptions.countP fun s => (p.overflow? s.id).isSome :=
    List.countP_congr fun s there => by rw [proper.handed_overflow? sent hands there]
  constructor
  · have known : ∀ id, (p.accepted? id).isSome = true → ∃ s, p.before.subscription? id = some s :=
      fun id accepted => sentTo?_known (proper.accepted?_isSome accepted)
    rw [hands.delivered, accepted, ← proper.sound.countP_ids enough known, fills, nowhere]
    rfl
  · have known : ∀ id, (p.overflow? id).isSome = true → ∃ s, p.before.subscription? id = some s :=
      fun id overflow => sentTo?_known (overflow?_isSome overflow)
    rw [hands.dropped, overflow, ← proper.sound.countP_ids enough known, misses, nowhere]
    rfl

/-- What goes to an inbox comes into it if a request waits there. -/
theorem fills_iff (there : p.inbox? = some inbox) (posts : p.before.Posts inbox m p.after) :
    p.fills = true ↔ p.before.inboxes.get? inbox = some none := by
  rw [fills, there]
  cases posts with
  | filled waits inboxes => simp [waits, inboxes, Table.get?_insert_self]
  | lost gone inboxes =>
    refine iff_of_false ?_ gone
    cases content : p.before.inboxes.get? inbox <;> simp [inboxes, content]

/-- What goes to an inbox is counted there. -/
theorem Proper.counted_posted (proper : p.Proper) (unsent : ∀ id, p.sentTo? id = none)
    (there : p.inbox? = some inbox) (posts : p.before.Posts inbox m p.after) (ids : List Nat) : p.Counted ids := by
  obtain ⟨accepted, overflow⟩ := proper.unsent unsent ids
  have fills := fills_iff there posts
  cases posts with
  | filled waits _ delivered dropped =>
    have filled := fills.mpr waits
    constructor
    · rw [delivered, accepted, filled]
      rfl
    · rw [dropped, overflow, misses, there, filled]
      rfl
  | lost gone _ delivered dropped =>
    have empty : p.fills = false := Bool.eq_false_iff.mpr fun filled => gone (fills.mp filled)
    constructor
    · rw [delivered, accepted, empty]
      rfl
    · rw [dropped, overflow, misses, there, empty]
      rfl

theorem Usual.counted (usual : p.Usual config) (enough : p.before.subscriptions.length ≤ n) :
    p.Counted (List.range' 1 n) := by
  have proper := usual.proper
  cases sent : p.sent? with
  | none =>
    have unsent : ∀ id, p.sentTo? id = none := fun id =>
      sentTo?_none fun s _ m sent' => nomatch sent.symm.trans sent'
    obtain ⟨accepted, overflow⟩ := proper.unsent unsent (List.range' 1 n)
    have nowhere : p.inbox? = none := by rw [inbox?, sent]; rfl
    have stats := proper.stirs.silent sent
    constructor
    · rw [stats, accepted, fills, nowhere]
      rfl
    · rw [stats, overflow, misses, nowhere]
      rfl
  | some message =>
    obtain ⟨subject, m⟩ := message
    rcases proper.stirs.sent sent with ⟨ordinary, hands⟩ | ⟨own, queues, posts⟩
    · exact proper.counted_handed enough sent ordinary hands
    · have there : p.inbox? = some subject := by
        rw [inbox?, sent]
        simp [own]
      have unsent : ∀ id, p.sentTo? id = none := fun id => sentTo?_none fun s known m' sent' => by
        cases sent.symm.trans sent'
        exact nomatch own.symm.trans (usual.regular.plain s known)
      exact proper.counted_posted unsent there (posts (usual.regular.lead ▸ usual.ordinary)) _

/-- What an inbox misses was sent when no request waited there. -/
theorem Usual.gone (usual : p.Usual config) (misses : p.misses = true) (there : p.inbox? = some inbox) :
    p.before.inboxes.get? inbox ≠ some none := by
  have own := (Option.filter_eq_some_iff.mp there).2
  obtain ⟨⟨subject, m⟩, sent, rfl⟩ := Option.map_eq_some_iff.mp (Option.filter_eq_some_iff.mp there).1
  rcases usual.stirs.sent sent with ⟨ordinary, _⟩ | ⟨_, _, posts⟩
  · exact nomatch ordinary.symm.trans own
  · intro waits
    rw [Passing.misses, (fills_iff there (posts (usual.regular.lead ▸ usual.ordinary))).mpr waits, there] at misses
    cases misses

end Passing

namespace Exchange

/-- The messages that came into the queue of a subscription, in their order. -/
def accepted (history : List Passing) (id : Nat) : List Message := history.filterMap (·.accepted? id)

/-- The messages that were sent to the subject of a subscription since it was made. -/
def sentTo (history : List Passing) (id : Nat) : List Message := history.filterMap (·.sentTo? id)

def overflow (history : List Passing) (id : Nat) : List Message := history.filterMap (·.overflow? id)

def handled (history : List Passing) (id : Nat) : List Message := history.filterMap (·.handled? id)

variable {e : Exchange} {config : BusConfig} {traffic : List Traffic} {id n : Nat}

theorem step_proper (sound : e.bus.Sound) (t : Traffic) : Passing.Proper ⟨e.bus, t, (e.step t).bus⟩ :=
  ⟨sound, step_stirs sound t⟩

theorem accepted_cons (p : Passing) (history : List Passing) (id : Nat) :
    accepted (p :: history) id = (p.accepted? id).toList ++ accepted history id := by
  rw [accepted, List.filterMap_cons]
  cases p.accepted? id <;> rfl

theorem handled_cons (p : Passing) (history : List Passing) (id : Nat) :
    handled (p :: history) id = (p.handled? id).toList ++ handled history id := by
  rw [handled, List.filterMap_cons]
  cases p.handled? id <;> rfl

theorem accepted_sublist {history : List Passing} (proper : ∀ p ∈ history, p.Proper) (id : Nat) :
    (accepted history id).Sublist (sentTo history id) := by
  induction history with
  | nil => exact List.Sublist.refl _
  | cons p rest ih =>
    have later := ih fun p there => proper p (.tail _ there)
    rw [accepted_cons, sentTo, List.filterMap_cons]
    cases accepted : p.accepted? id with
    | none =>
      cases p.sentTo? id with
      | none => exact later
      | some m => exact later.cons m
    | some m =>
      rw [(proper p (.head _)).accepted?_sentTo? accepted]
      exact later.cons_cons m

theorem run_ended (sound : e.bus.Sound) (ended : e.bus.Ended id) (traffic : List Traffic) :
    (e.run traffic).bus.Ended id ∧ handled (e.history traffic) id = [] := by
  induction traffic generalizing e with
  | nil => exact ⟨ended, rfl⟩
  | cons t rest ih =>
    obtain ⟨after, idle⟩ := (step_proper sound t).ended ended
    obtain ⟨final, nothing⟩ := ih ((step_stirs sound t).sound sound) after
    refine ⟨final, ?_⟩
    rw [history, handled_cons, idle, nothing]
    rfl

/-- What a queue held and what it accepted is handled in this order, and what is not handled still waits, unless the
loop has ended. -/
theorem run_flow (sound : e.bus.Sound) (id : Nat) (traffic : List Traffic) :
    handled (e.history traffic) id <+: e.bus.queueOf id ++ accepted (e.history traffic) id ∧
      (¬ (e.run traffic).bus.Ended id →
        handled (e.history traffic) id ++ (e.run traffic).bus.queueOf id =
          e.bus.queueOf id ++ accepted (e.history traffic) id) := by
  induction traffic generalizing e with
  | nil => exact ⟨List.nil_prefix, fun _ => (List.append_nil _).symm⟩
  | cons t rest ih =>
    have sound' := (step_stirs sound t).sound sound
    obtain ⟨began, alive⟩ := ih sound'
    rw [history, handled_cons, accepted_cons, ← List.append_assoc]
    rcases (step_proper sound t).balance id with balance | ⟨ended, idle⟩
    · rw [balance, List.append_assoc, List.append_assoc]
      refine ⟨(List.prefix_append_right_inj _).mpr began, fun running => ?_⟩
      rw [← alive running]
      rfl
    · obtain ⟨final, nothing⟩ := run_ended sound' ended rest
      rw [idle, nothing]
      exact ⟨List.nil_prefix, fun running => absurd final running⟩

/-- A sum over the ids of what has happened, and of one thing more. -/
theorem sum_cons (f : Passing → Nat → Option Message) (p : Passing) (history : List Passing) (ids : List Nat) :
    (ids.map fun id => ((p :: history).filterMap (f · id)).length).sum =
      ids.countP (fun id => (f p id).isSome) + (ids.map fun id => (history.filterMap (f · id)).length).sum := by
  induction ids with
  | nil => rfl
  | cons id rest ih =>
    rw [List.map_cons, List.map_cons, List.sum_cons, List.sum_cons, ih, List.countP_cons, List.filterMap_cons]
    cases f p id with
    | none => simp; omega
    | some m => simp; omega

theorem run_length (sound : e.bus.Sound) (traffic : List Traffic) :
    e.bus.subscriptions.length ≤ (e.run traffic).bus.subscriptions.length := by
  induction traffic generalizing e with
  | nil => exact Nat.le_refl _
  | cons t rest ih =>
    have stirs := step_stirs sound t
    have longer := congrArg List.length stirs.subjects
    rw [List.length_append, List.length_map, List.length_map] at longer
    exact Nat.le_trans (by omega) (ih (stirs.sound sound))

/-- The counts of the bus are those of its queues and inboxes. -/
theorem run_counted (regular : e.bus.Regular config) (plain : ∀ t ∈ traffic, t.Plain config.subjectPrefix)
    (enough : (e.run traffic).bus.subscriptions.length ≤ n) :
    (e.run traffic).bus.stats.delivered = e.bus.stats.delivered +
        ((List.range' 1 n).map fun id => (accepted (e.history traffic) id).length).sum +
          (e.history traffic).countP Passing.fills ∧
      (e.run traffic).bus.stats.dropped = e.bus.stats.dropped +
        ((List.range' 1 n).map fun id => (overflow (e.history traffic) id).length).sum +
          (e.history traffic).countP Passing.misses := by
  induction traffic generalizing e with
  | nil => simp [run, history, accepted, overflow, List.map_const']
  | cons t rest ih =>
    have stirs := step_stirs regular.sound t
    have usual : Passing.Usual config ⟨e.bus, t, (e.step t).bus⟩ := ⟨regular, stirs, (plain t (.head _)).ordinary⟩
    have counted := usual.counted (Nat.le_trans (run_length regular.sound (t :: rest)) enough)
    obtain ⟨delivered, dropped⟩ := ih (stirs.regular regular (plain t (.head _)))
      (fun t there => plain t (.tail _ there)) enough
    have accepted' := sum_cons Passing.accepted? ⟨e.bus, t, (e.step t).bus⟩ ((e.step t).history rest) (List.range' 1 n)
    have overflow' := sum_cons Passing.overflow? ⟨e.bus, t, (e.step t).bus⟩ ((e.step t).history rest) (List.range' 1 n)
    have fills := counted.delivered
    have misses := counted.dropped
    dsimp only at fills misses
    rw [history, List.countP_cons, List.countP_cons]
    unfold accepted overflow at *
    rw [accepted', overflow']
    change ((e.step t).run rest).bus.stats.delivered = _ ∧ ((e.step t).run rest).bus.stats.dropped = _
    rw [delivered, dropped]
    omega

theorem run_regular (regular : e.bus.Regular config) (plain : ∀ t ∈ traffic, t.Plain config.subjectPrefix) :
    (e.run traffic).bus.Regular config := by
  induction traffic generalizing e with
  | nil => exact regular
  | cons t rest ih =>
    exact ih ((step_stirs regular.sound t).regular regular (plain t (.head _))) fun t there => plain t (.tail _ there)

theorem history_usual (regular : e.bus.Regular config) (plain : ∀ t ∈ traffic, t.Plain config.subjectPrefix)
    {p : Passing} (there : p ∈ e.history traffic) : p.Usual config := by
  obtain ⟨earlier, t, later, rfl, rfl⟩ := history_split there
  have regular' := run_regular regular fun t there => plain t (List.mem_append_left _ there)
  have ordinary := (plain t (List.mem_append_right _ (.head _))).ordinary
  exact ⟨regular', step_stirs regular'.sound t, ordinary⟩

/-- The messages on a bus, by its history and by what is there in the end. -/
structure Accounted (config : BusConfig) (history : List Passing) (bus : Bus) : Prop where
  inOrder : ∀ id, (accepted history id).Sublist (sentTo history id)
  refused : ∀ p ∈ history, ∀ id m, p.sentTo? id = some m → p.accepted? id = none →
    p.before.Ended id ∨ (p.before.queueOf id).length = max 1 config.channelCapacity
  running : ∀ s ∈ bus.subscriptions, s.listening = true →
    handled history s.id ++ s.queue = accepted history s.id
  ended : ∀ s ∈ bus.subscriptions, s.listening = false → handled history s.id <+: accepted history s.id
  delivered : bus.stats.delivered =
    (bus.subscriptions.map fun s => (accepted history s.id).length).sum + history.countP Passing.fills
  dropped : bus.stats.dropped =
    (bus.subscriptions.map fun s => (overflow history s.id).length).sum + history.countP Passing.misses
  gone : ∀ p ∈ history, p.misses = true → ∀ inbox, p.inbox? = some inbox → p.before.inboxes.get? inbox ≠ some none

/-- However messages are sent, taken and lost: if no subject of an agent looks like an inbox, the queues keep their
order, and the counts are exact. -/
theorem messages_accounted (config : BusConfig) (traffic : List Traffic)
    (plain : ∀ t ∈ traffic, t.Plain config.subjectPrefix) :
    Accounted config ((opened config).history traffic) ((opened config).run traffic).bus := by
  have regular := Bus.ofConfig_regular config
  have usual := fun p there => history_usual (e := opened config) (p := p) regular plain there
  have final := run_regular (e := opened config) regular plain
  have flow := fun id => run_flow (e := opened config) regular.sound id traffic
  obtain ⟨delivered, dropped⟩ := run_counted (e := opened config) regular plain (Nat.le_refl _)
  have ids := final.sound.ids
  generalize (opened config).history traffic = history at *
  generalize ((opened config).run traffic).bus = bus at *
  refine ⟨fun id => ?_, fun p there id m sent refused => (usual p there).refused sent refused,
    fun s there listening => ?_, fun s there _ => (flow s.id).1, ?_, ?_, fun p there misses inbox goes => ?_⟩
  · exact accepted_sublist (fun p there => (usual p there).proper) id
  · have alive : ¬ bus.Ended s.id := fun ended =>
      nomatch listening.symm.trans ((Bus.ended_iff (final.sound.subscription? there)).mp ended)
    rw [← final.sound.queueOf there]
    exact (flow s.id).2 alive
  · rw [delivered, ← ids, List.map_map]
    exact congrArg (· + _) (Nat.zero_add _)
  · rw [dropped, ← ids, List.map_map]
    exact congrArg (· + _) (Nat.zero_add _)
  · exact (usual p there).gone misses goes

end Exchange

namespace Sample

def rumour (id : String) : Message where
  id
  sender := "traveller"
  recipient := "elder"
  topic := "news"
  payload := .null
  sentAt := ⟨0, 0⟩

/-- The elder hears one rumour at a time, is asked for one and answers it twice, and then retires. -/
def market : List Traffic :=
  let around : Surroundings := { time := ⟨1, 0⟩ }
  let asked := { rumour "3" with replyTo := some "_INBOX.first" }
  [.subscribe "elder" "news", .publish { token := 0 } around (rumour "1"), .publish { token := 0 } around (rumour "2"),
    .receive 1, .request { token := 0 } around (rumour "3") 1000 "first", .receive 1,
    .reply { token := 0 } around asked "4" .null, .reply { token := 0 } around asked "5" .null, .unsubscribe 1,
    .publish { token := 0 } around (rumour "6"), .close 1, .publish { token := 0 } around (rumour "7")]

end Sample

namespace Exchange

theorem messages_accounted_at_market :
    (∀ t ∈ Sample.market, t.Plain "agents.") ∧
      Accounted { channelCapacity := 0 } ((opened { channelCapacity := 0 }).history Sample.market)
        ((opened { channelCapacity := 0 }).run Sample.market).bus ∧
      (accepted ((opened { channelCapacity := 0 }).history Sample.market) 1).map Message.id = ["1", "3", "6"] ∧
      (handled ((opened { channelCapacity := 0 }).history Sample.market) 1).map Message.id = ["1", "3"] ∧
      ((opened { channelCapacity := 0 }).run Sample.market).bus.stats =
        { published := 7, delivered := 4, dropped := 2 } := by
  have plain : ∀ t ∈ Sample.market, t.Plain "agents." := by
    intro t there
    simp only [Sample.market, List.mem_cons, List.not_mem_nil, or_false] at there
    rcases there with rfl | rfl | rfl | rfl | rfl | rfl | rfl | rfl | rfl | rfl | rfl | rfl
    all_goals trivial
  exact ⟨plain, messages_accounted { channelCapacity := 0 } Sample.market plain, by decide, by decide, by decide⟩

end Exchange
end Handover
