import Handover.Proofs.Exchange

/-!
# Replies and the requests they answer

If no two requests draw the same inbox, every inbox is that of one request that waits, and what a request returns is
the one reply that went into its own: `replies_correlate`.
-/

namespace Handover
namespace Exchange

/-- What is on record of the requests and the replies fits together. -/
structure Kept (e : Exchange) : Prop where
  distinct : (e.inquiries.map Inquiry.inboxId).Nodup
  own : ∀ q ∈ e.inquiries, ∀ r, q.state = .waits r → r.inbox = q.inbox
  returned : ∀ q ∈ e.inquiries, ∀ m, q.state = .returned (.ok m) → ∃ a ∈ e.answers, a.Fills q.inbox ∧ a.message = m
  asked : ∀ a ∈ e.answers, ∀ inbox, Bus.isInbox inbox = true → a.Fills inbox → inbox ∈ e.inquiries.map Inquiry.inbox
  once : ∀ inbox, Bus.isInbox inbox = true → e.answers.Pairwise fun a a' => ¬ (a.Fills inbox ∧ a'.Fills inbox)
  bounced : ∀ a ∈ e.answers, ∀ inbox, a.received.replyTo = some inbox → Bus.isInbox inbox = true →
    a.Fills inbox ∨ a.Bounces

/-- The inboxes are those of the requests that wait, and each has the reply that went into it. -/
structure Boxed (lead : String) (e : Exchange) : Prop where
  lead : e.bus.subjectPrefix = lead
  belongs : ∀ inbox, e.bus.inboxes.contains inbox = true ↔ ∃ i, e.Waits i inbox
  empty : ∀ inbox, e.bus.inboxes.get? inbox = some none → ∀ a ∈ e.answers, ¬ a.Fills inbox
  filled : ∀ inbox m, e.bus.inboxes.get? inbox = some (some m) → ∃ a ∈ e.answers, a.Fills inbox ∧ a.message = m

variable {e : Exchange} {lead inbox inboxId : String} {bus : Bus} {q : Inquiry} {i j : Nat} {ctx : Context}
  {around : Surroundings} {m : Message} {a : Answer} {r : Request} {state : InquiryState}
  {result : Except Error Message}

theorem Waits.asked (waits : e.Waits i inbox) (kept : Kept e) : inbox ∈ e.inquiries.map Inquiry.inbox := by
  obtain ⟨q, r, here, state, rfl⟩ := waits
  have there := List.mem_of_getElem? here
  exact List.mem_map.mpr ⟨q, there, (kept.own q there r state).symm⟩

theorem Boxed.asked (boxed : Boxed lead e) (kept : Kept e) (there : e.bus.inboxes.get? inbox = some content) :
    inbox ∈ e.inquiries.map Inquiry.inbox := by
  obtain ⟨i, waits⟩ := (boxed.belongs inbox).mp (Option.isSome_iff_exists.mpr ⟨content, there⟩)
  exact waits.asked kept

theorem asked_isInbox (asked : inbox ∈ e.inquiries.map Inquiry.inbox) : Bus.isInbox inbox = true := by
  obtain ⟨q, _, rfl⟩ := List.mem_map.mp asked
  exact Bus.isInbox_inbox q.inboxId

theorem asked_inboxId (asked : Bus.inboxPrefix ++ inboxId ∈ e.inquiries.map Inquiry.inbox) :
    inboxId ∈ e.inquiries.map Inquiry.inboxId := by
  obtain ⟨q, there, same⟩ := List.mem_map.mp asked
  exact List.mem_map.mpr ⟨q, there, Bus.inbox_eq_iff.mp same⟩

theorem opened_kept (config : BusConfig) : Kept (opened config) where
  distinct := .nil
  own := fun _ there => nomatch there
  returned := fun _ there => nomatch there
  asked := fun _ there => nomatch there
  once := fun _ _ => .nil
  bounced := fun _ there => nomatch there

theorem opened_boxed (config : BusConfig) : Boxed config.subjectPrefix (opened config) where
  lead := rfl
  belongs := fun _ => ⟨(fun known => nomatch known), fun ⟨_, _, _, here, _⟩ => nomatch here⟩
  empty := fun _ found => nomatch found
  filled := fun _ _ found => nomatch found

/-- What leaves the inboxes alone. -/
theorem Boxed.beside (boxed : Boxed lead e) (same : Bus.SameBoxes e.bus bus) : Boxed lead { e with bus } where
  lead := same.lead.trans boxed.lead
  belongs := fun inbox => same.inboxes ▸ boxed.belongs inbox
  empty := fun inbox => same.inboxes ▸ boxed.empty inbox
  filled := fun inbox => same.inboxes ▸ boxed.filled inbox

/-! ## Requests -/

theorem Kept.asking (kept : Kept e) (fresh : inboxId ∉ e.inquiries.map Inquiry.inboxId)
    (own : ∀ r, state = .waits r → r.inbox = Bus.inboxPrefix ++ inboxId)
    (unanswered : ∀ m, state ≠ .returned (.ok m)) :
    Kept { e with bus, inquiries := e.inquiries ++ [{ message := m, inboxId, state }] } := by
  refine ⟨?_, fun q there r waits => ?_, fun q there m' ended => ?_, fun a there inbox box fills => ?_, kept.once,
    kept.bounced⟩
  · rw [List.map_append, List.nodup_append]
    refine ⟨kept.distinct, List.pairwise_singleton _ _, fun id earlier id' last same => ?_⟩
    have own : id = inboxId := same.trans (List.mem_singleton.mp last)
    exact fresh (own ▸ earlier)
  · rcases List.mem_append.mp there with earlier | last
    · exact kept.own q earlier r waits
    · obtain rfl := List.mem_singleton.mp last
      exact own r waits
  · rcases List.mem_append.mp there with earlier | last
    · exact kept.returned q earlier m' ended
    · obtain rfl := List.mem_singleton.mp last
      exact absurd ended (unanswered m')
  · rw [List.map_append]
    exact List.mem_append_left _ (kept.asked a there inbox box fills)

theorem waits_asking :
    ({ e with bus, inquiries := e.inquiries ++ [{ message := m, inboxId, state }] } : Exchange).Waits i inbox ↔
      e.Waits i inbox ∨ i = e.inquiries.length ∧ ∃ r, state = .waits r ∧ r.inbox = inbox := by
  constructor
  · rintro ⟨q, r, here, waits, own⟩
    rcases Nat.lt_or_ge i e.inquiries.length with earlier | last
    · rw [List.getElem?_append_left earlier] at here
      exact .inl ⟨q, r, here, waits, own⟩
    · have place := (List.getElem?_eq_some_iff.mp here).1
      simp only [List.length_append, List.length_singleton] at place
      obtain rfl : i = e.inquiries.length := by omega
      rw [List.getElem?_concat_length] at here
      cases here
      exact .inr ⟨rfl, r, waits, own⟩
  · rintro (⟨q, r, here, waits, own⟩ | ⟨rfl, r, waits, own⟩)
    · refine ⟨q, r, ?_, waits, own⟩
      rw [List.getElem?_append_left (List.getElem?_eq_some_iff.mp here).1]
      exact here
    · exact ⟨_, r, List.getElem?_concat_length, waits, own⟩

theorem Boxed.fresh (boxed : Boxed lead e) (kept : Kept e) (fresh : inboxId ∉ e.inquiries.map Inquiry.inboxId) :
    e.bus.inboxes.get? (Bus.inboxPrefix ++ inboxId) = none := by
  cases found : e.bus.inboxes.get? (Bus.inboxPrefix ++ inboxId) with
  | none => rfl
  | some content =>
    exact absurd (asked_inboxId (boxed.asked kept found)) fresh

/-- A request that was refused has left no inbox. -/
theorem Boxed.refused (boxed : Boxed lead e) (lead' : bus.subjectPrefix = e.bus.subjectPrefix)
    (inboxes : ∀ inbox, bus.inboxes.get? inbox = e.bus.inboxes.get? inbox) :
    Boxed lead
      { e with bus, inquiries := e.inquiries ++ [{ message := m, inboxId, state := .returned result }] } := by
  refine ⟨lead'.trans boxed.lead, fun inbox => ?_, fun inbox => ?_, fun inbox => ?_⟩
  · simp only [Table.contains, inboxes, waits_asking, reduceCtorEq, false_and, exists_false, and_false, or_false]
    exact boxed.belongs inbox
  · rw [inboxes]
    exact boxed.empty inbox
  · rw [inboxes]
    exact boxed.filled inbox

theorem Boxed.sent (boxed : Boxed lead e) (kept : Kept e) (fresh : inboxId ∉ e.inquiries.map Inquiry.inboxId)
    (own : r.inbox = Bus.inboxPrefix ++ inboxId) (lead' : bus.subjectPrefix = e.bus.subjectPrefix)
    (inboxes : bus.inboxes = e.bus.inboxes.insert (Bus.inboxPrefix ++ inboxId) none) :
    Boxed lead { e with bus, inquiries := e.inquiries ++ [{ message := m, inboxId, state := .waits r }] } := by
  refine ⟨lead'.trans boxed.lead, fun inbox => ?_, fun inbox found a there fills => ?_, fun inbox m' found => ?_⟩
  · rw [inboxes, Table.contains_insert, Bool.or_eq_true, decide_eq_true_eq, boxed.belongs]
    constructor
    · rintro (rfl | ⟨i, waits⟩)
      · exact ⟨_, waits_asking.mpr (.inr ⟨rfl, r, rfl, own⟩)⟩
      · exact ⟨i, waits_asking.mpr (.inl waits)⟩
    · rintro ⟨i, waits⟩
      rcases waits_asking.mp waits with earlier | ⟨_, _, ⟨⟩, same⟩
      · exact .inr ⟨i, earlier⟩
      · exact .inl (same.symm.trans own)
  · rw [inboxes, Table.get?_insert] at found
    split at found
    · rename_i same
      subst same
      exact fresh (asked_inboxId (kept.asked a there _ (Bus.isInbox_inbox inboxId) fills))
    · exact boxed.empty inbox found a there fills
  · rw [inboxes, Table.get?_insert] at found
    split at found
    · cases found
    · exact boxed.filled inbox m' found

theorem ask_sound (boxed : Boxed lead e) (kept : Kept e) (fresh : inboxId ∉ e.inquiries.map Inquiry.inboxId)
    (ordinary : Bus.isInbox (Message.subject lead m.recipient m.topic) = false) (timeout : Nat) :
    Boxed lead (e.ask ctx around m timeout inboxId) ∧ Kept (e.ask ctx around m timeout inboxId) := by
  have ordinary' : Bus.isInbox (e.bus.subjectFor m.recipient m.topic) = false := by
    rw [Bus.subjectFor, boxed.lead]
    exact ordinary
  have opens := Bus.openRequest_opens ordinary' around.tokens ctx around.moment timeout inboxId
  unfold ask
  generalize e.bus.openRequest around.tokens ctx around.moment m timeout inboxId = done at opens
  obtain ⟨result, bus⟩ := done
  cases opens with
  | refused lead' inboxes =>
    have same := fun inbox => inboxes inbox (boxed.fresh kept fresh)
    exact ⟨boxed.refused lead' same, kept.asking fresh nofun nofun⟩
  | sent own inboxes lead' =>
    refine ⟨boxed.sent kept fresh own lead' inboxes, kept.asking fresh ?_ nofun⟩
    rintro _ ⟨⟩
    exact own

/-! ## Looks -/

/-- No two requests have the same inbox. -/
theorem unique_of_distinct (distinct : (e.inquiries.map Inquiry.inboxId).Nodup) {q' : Inquiry}
    (here : e.inquiries[i]? = some q) (there : e.inquiries[j]? = some q') (same : q'.inbox = q.inbox) : i = j := by
  have ids : q'.inboxId = q.inboxId := Bus.inbox_eq_iff.mp same
  have names : i < (e.inquiries.map Inquiry.inboxId).length := by
    rw [List.length_map]
    exact (List.getElem?_eq_some_iff.mp here).1
  refine (List.getElem?_inj names distinct).mp ?_
  rw [List.getElem?_map, List.getElem?_map, here, there, Option.map_some, Option.map_some, ids]

theorem Kept.unique (kept : Kept e) {q' : Inquiry} (here : e.inquiries[i]? = some q)
    (there : e.inquiries[j]? = some q') (same : q'.inbox = q.inbox) : i = j :=
  unique_of_distinct kept.distinct here there same

theorem waits_unique_of_own (distinct : (e.inquiries.map Inquiry.inboxId).Nodup)
    (own : ∀ q ∈ e.inquiries, ∀ r, q.state = .waits r → r.inbox = q.inbox) (waits : e.Waits i inbox)
    (waits' : e.Waits j inbox) : i = j := by
  obtain ⟨q, r, here, state, rfl⟩ := waits
  obtain ⟨q', r', there, state', same⟩ := waits'
  have mine := own q (List.mem_of_getElem? here) r state
  have mine' := own q' (List.mem_of_getElem? there) r' state'
  exact unique_of_distinct distinct here there (mine'.symm.trans (same.trans mine))

theorem waits_unique (kept : Kept e) (waits : e.Waits i inbox) (waits' : e.Waits j inbox) : i = j :=
  waits_unique_of_own kept.distinct kept.own waits waits'

theorem set_inquiries (here : e.inquiries[i]? = some q) (f : Inquiry → String) (q' : Inquiry) (same : f q' = f q) :
    (e.inquiries.set i q').map f = e.inquiries.map f := by
  obtain ⟨inside, rfl⟩ := List.getElem?_eq_some_iff.mp here
  rw [List.map_set, same]
  have names : i < (e.inquiries.map f).length := by rwa [List.length_map]
  have there : f e.inquiries[i] = (e.inquiries.map f)[i] := by rw [List.getElem_map]
  rw [there, List.set_getElem_self]

theorem Kept.looking (kept : Kept e) (here : e.inquiries[i]? = some { message := m, inboxId, state })
    (answered : ∀ m, result = .ok m → ∃ a ∈ e.answers, a.Fills (Bus.inboxPrefix ++ inboxId) ∧ a.message = m) :
    Kept { e with bus, inquiries := e.inquiries.set i { message := m, inboxId, state := .returned result } } := by
  have ids : (e.inquiries.set i { message := m, inboxId, state := .returned result }).map Inquiry.inboxId =
      e.inquiries.map Inquiry.inboxId := set_inquiries here _ _ rfl
  have inboxes : (e.inquiries.set i { message := m, inboxId, state := .returned result }).map Inquiry.inbox =
      e.inquiries.map Inquiry.inbox := set_inquiries here _ _ rfl
  refine ⟨ids ▸ kept.distinct, fun q there r waits => ?_, fun q there m' ended => ?_,
    fun a there inbox box fills => inboxes ▸ kept.asked a there inbox box fills, kept.once, kept.bounced⟩
  · rcases List.mem_or_eq_of_mem_set there with other | rfl
    · exact kept.own q other r waits
    · cases waits
  · rcases List.mem_or_eq_of_mem_set there with other | rfl
    · exact kept.returned q other m' ended
    · exact answered m' (by cases ended; rfl)

theorem waits_looking (here : e.inquiries[i]? = some q) :
    ({ e with bus, inquiries := e.inquiries.set i { message := m, inboxId, state := .returned result } } :
      Exchange).Waits j inbox ↔ j ≠ i ∧ e.Waits j inbox := by
  obtain ⟨inside, _⟩ := List.getElem?_eq_some_iff.mp here
  simp only [Waits, List.getElem?_set, inside, if_true]
  constructor
  · rintro ⟨q', r, there, state, own⟩
    split at there
    · cases there
      cases state
    · rename_i other
      exact ⟨Ne.symm other, q', r, there, state, own⟩
  · rintro ⟨other, q', r, there, state, own⟩
    exact ⟨q', r, by rwa [if_neg (Ne.symm other)], state, own⟩

theorem Boxed.looking (boxed : Boxed lead e) (kept : Kept e)
    (here : e.inquiries[i]? = some { message := m, inboxId, state := .waits r }) :
    Boxed lead
      { e with
        bus := e.bus.closeRequest r
        inquiries := e.inquiries.set i { message := m, inboxId, state := .returned result } } := by
  have waits : e.Waits i r.inbox := ⟨_, r, here, rfl, rfl⟩
  have erased : ∀ inbox, (e.bus.closeRequest r).inboxes.get? inbox =
      if inbox = r.inbox then none else e.bus.inboxes.get? inbox := fun _ => Table.get?_erase _ _ _
  refine ⟨boxed.lead, fun inbox => ?_, fun inbox found a there fills => ?_, fun inbox m' found => ?_⟩
  · simp only [waits_looking here]
    by_cases own : inbox = r.inbox
    · subst own
      simp only [Table.contains, erased, if_true, Option.isSome_none, Bool.false_eq_true, false_iff, not_exists,
        not_and]
      exact fun j other waits' => other (waits_unique kept waits' waits)
    · simp only [Table.contains, erased, if_neg own]
      rw [← Table.contains, boxed.belongs]
      constructor
      · rintro ⟨j, waits'⟩
        refine ⟨j, ?_, waits'⟩
        rintro rfl
        obtain ⟨q, r', there, state, same⟩ := waits'
        cases here.symm.trans there
        cases state
        exact own same.symm
      · rintro ⟨j, _, waits'⟩
        exact ⟨j, waits'⟩
  · rw [erased] at found
    split at found
    · cases found
    · exact boxed.empty inbox found a there fills
  · rw [erased] at found
    split at found
    · cases found
    · exact boxed.filled inbox m' found

theorem look_sound (boxed : Boxed lead e) (kept : Kept e) (i : Nat) (around : Surroundings) :
    Boxed lead (e.look i around) ∧ Kept (e.look i around) := by
  unfold look
  split
  · rename_i message inboxId r here
    split
    · rename_i result polled
      refine ⟨boxed.looking kept here, kept.looking here fun m ended => ?_⟩
      have own : r.inbox = Bus.inboxPrefix ++ inboxId := kept.own _ (List.mem_of_getElem? here) r rfl
      subst ended
      rw [← own]
      exact boxed.filled r.inbox m (Bus.pollRequest_ok polled)
    · exact ⟨boxed, kept⟩
  · exact ⟨boxed, kept⟩

/-! ## Replies -/

theorem Kept.answering (kept : Kept e)
    (asked : ∀ inbox, Bus.isInbox inbox = true → a.Fills inbox → inbox ∈ e.inquiries.map Inquiry.inbox)
    (first : ∀ inbox, Bus.isInbox inbox = true → a.Fills inbox → ∀ a' ∈ e.answers, ¬ a'.Fills inbox)
    (bounced : ∀ inbox, a.received.replyTo = some inbox → Bus.isInbox inbox = true → a.Fills inbox ∨ a.Bounces) :
    Kept { e with bus, answers := e.answers ++ [a] } := by
  refine ⟨kept.distinct, kept.own, fun q there m' ended => ?_, fun a' there inbox box fills => ?_,
    fun inbox box => ?_, fun a' there inbox addressed box => ?_⟩
  · obtain ⟨a', there', fills, same⟩ := kept.returned q there m' ended
    exact ⟨a', List.mem_append_left _ there', fills, same⟩
  · rcases List.mem_append.mp there with earlier | last
    · exact kept.asked a' earlier inbox box fills
    · obtain rfl := List.mem_singleton.mp last
      exact asked inbox box fills
  · refine List.pairwise_append.mpr ⟨kept.once inbox box, List.pairwise_singleton _ _, fun a' there a'' last => ?_⟩
    obtain rfl := List.mem_singleton.mp last
    exact fun ⟨earlier, fills⟩ => first inbox box fills a' there earlier
  · rcases List.mem_append.mp there with earlier | last
    · exact kept.bounced a' earlier inbox addressed box
    · obtain rfl := List.mem_singleton.mp last
      exact bounced inbox addressed box

/-- A reply that went into no inbox. -/
theorem bounce_sound (boxed : Boxed lead e) (kept : Kept e) (same : Bus.SameBoxes e.bus bus)
    (idle : ∀ inbox, Bus.isInbox inbox = true → ¬ a.Fills inbox)
    (bounced : ∀ inbox, a.received.replyTo = some inbox → Bus.isInbox inbox = true → a.Bounces) :
    Boxed lead { e with bus, answers := e.answers ++ [a] } ∧ Kept { e with bus, answers := e.answers ++ [a] } := by
  refine ⟨⟨same.lead.trans boxed.lead, fun inbox => same.inboxes ▸ boxed.belongs inbox,
    fun inbox found a' there => ?_, fun inbox m' found => ?_⟩, kept.answering ?_ ?_ fun inbox addressed box => ?_⟩
  · have found' : e.bus.inboxes.get? inbox = some none := same.inboxes ▸ found
    rcases List.mem_append.mp there with earlier | last
    · exact boxed.empty inbox found' a' earlier
    · obtain rfl := List.mem_singleton.mp last
      exact idle inbox (asked_isInbox (boxed.asked kept found'))
  · obtain ⟨a', there, fills, own⟩ := boxed.filled inbox m' (same.inboxes ▸ found)
    exact ⟨a', List.mem_append_left _ there, fills, own⟩
  · exact fun inbox box fills => absurd fills (idle inbox box)
  · exact fun inbox box fills => absurd fills (idle inbox box)
  · exact .inr (bounced inbox addressed box)

theorem Boxed.filling (boxed : Boxed lead e) (lead' : bus.subjectPrefix = e.bus.subjectPrefix)
    (waits : e.bus.inboxes.get? inbox = some none)
    (inboxes : bus.inboxes = e.bus.inboxes.insert inbox (some a.message)) (fills : a.Fills inbox) :
    Boxed lead { e with bus, answers := e.answers ++ [a] } := by
  refine ⟨lead'.trans boxed.lead, fun other => ?_, fun other found a' there fills' => ?_, fun other m' found => ?_⟩
  · have known : e.bus.inboxes.contains inbox = true := Option.isSome_iff_exists.mpr ⟨_, waits⟩
    rw [inboxes, Table.contains_insert, Bool.or_eq_true, decide_eq_true_eq, boxed.belongs]
    constructor
    · rintro (rfl | waits')
      · exact (boxed.belongs other).mp known
      · exact waits'
    · exact .inr
  · rw [inboxes, Table.get?_insert] at found
    split at found
    · cases found
    · rename_i differ
      rcases List.mem_append.mp there with earlier | last
      · exact boxed.empty other found a' earlier fills'
      · obtain rfl := List.mem_singleton.mp last
        exact differ (Option.some.inj (fills'.addressed.symm.trans fills.addressed))
  · rw [inboxes, Table.get?_insert] at found
    split at found
    · rename_i same
      cases found
      exact ⟨a, List.mem_append_right _ (.head _), same ▸ fills, rfl⟩
    · obtain ⟨a', there, fills', own⟩ := boxed.filled other m' found
      exact ⟨a', List.mem_append_left _ there, fills', own⟩

theorem answer_sound (boxed : Boxed lead e) (kept : Kept e) (ctx : Context) (around : Surroundings)
    (received : Message) (id : String) (payload : Json) :
    Boxed lead (e.answer ctx around received id payload) ∧ Kept (e.answer ctx around received id payload) := by
  have replied := Bus.reply_replied e.bus around.tokens ctx around.moment received
    (received.replyWith id around.time payload)
  unfold answer
  generalize e.bus.reply around.tokens ctx around.moment received (received.replyWith id around.time payload) = done
    at replied
  obtain ⟨result, bus⟩ := done
  cases replied with
  | @barred err gone =>
    exact bounce_sound boxed kept ⟨rfl, rfl⟩ (fun _ _ fills => nomatch fills.taken)
      fun _ _ _ => ⟨.inr ⟨err, gone, rfl⟩, rfl, rfl⟩
  | unaddressed none =>
    exact bounce_sound boxed kept ⟨rfl, rfl⟩ (fun _ _ fills => nomatch fills.taken)
      fun _ addressed _ => nomatch none.symm.trans addressed
  | @astray subject _ _ addressed ordinary boxes =>
    have apart : ∀ inbox, received.replyTo = some inbox → Bus.isInbox inbox = true → False := by
      intro inbox addressed' own
      obtain rfl : subject = inbox := Option.some.inj (addressed.symm.trans addressed')
      exact nomatch ordinary.symm.trans own
    exact bounce_sound boxed kept boxes (fun inbox own fills => apart inbox fills.addressed own)
      fun inbox addressed' own => (apart inbox addressed' own).elim
  | @taken inbox _ addressed own waits inboxes lead' =>
    refine ⟨boxed.filling lead' waits inboxes ⟨addressed, rfl⟩, kept.answering ?_ ?_ fun other addressed' _ => ?_⟩
    · intro other _ fills
      obtain rfl : inbox = other := Option.some.inj (addressed.symm.trans fills.addressed)
      exact boxed.asked kept waits
    · intro other _ fills
      obtain rfl : inbox = other := Option.some.inj (addressed.symm.trans fills.addressed)
      exact boxed.empty inbox waits
    · exact .inl ⟨addressed', rfl⟩
  | late addressed own unmoved =>
    exact bounce_sound boxed kept unmoved.boxes (fun _ _ fills => nomatch fills.taken)
      fun _ _ _ => ⟨.inl rfl, unmoved.subscriptions, unmoved.boxes.inboxes⟩

/-! ## Runs -/

theorem step_sound (boxed : Boxed lead e) (kept : Kept e) {t : Traffic} (ordinary : t.Ordinary lead)
    (fresh : ∀ inboxId, t.inboxId? = some inboxId → inboxId ∉ e.inquiries.map Inquiry.inboxId) :
    Boxed lead (e.step t) ∧ Kept (e.step t) := by
  have beside : ∀ {bus : Bus}, Bus.SameBoxes e.bus bus → Boxed lead { e with bus } ∧ Kept { e with bus } :=
    fun same => ⟨boxed.beside same, kept.distinct, kept.own, kept.returned, kept.asked, kept.once, kept.bounced⟩
  cases t with
  | subscribe agent topic =>
    dsimp only [step]
    split
    · rename_i subscribed
      exact beside (Bus.subscribe_same subscribed)
    · exact ⟨boxed, kept⟩
  | unsubscribe | close => exact beside ⟨rfl, rfl⟩
  | receive id =>
    dsimp only [step]
    split
    · rename_i received
      exact beside (Bus.receive_same received)
    · exact ⟨boxed, kept⟩
  | publish ctx around m =>
    have ordinary' : Bus.isInbox (e.bus.subjectFor m.recipient m.topic) = false := by
      rw [Bus.subjectFor, boxed.lead]
      exact ordinary
    exact beside (Bus.publish_same ordinary')
  | request ctx around m timeout inboxId => exact ask_sound boxed kept (fresh inboxId rfl) ordinary timeout
  | look i around => exact look_sound boxed kept i around
  | reply ctx around received id payload => exact answer_sound boxed kept ctx around received id payload

theorem step_asks (e : Exchange) (t : Traffic) :
    (e.step t).inquiries.map Inquiry.inboxId = e.inquiries.map Inquiry.inboxId ++ t.inboxId?.toList := by
  have idle : e.inquiries.map Inquiry.inboxId = e.inquiries.map Inquiry.inboxId ++ [] := (List.append_nil _).symm
  cases t with
  | subscribe | receive =>
    dsimp only [step]
    split <;> exact idle
  | unsubscribe | close | publish | reply => exact idle
  | request => exact List.map_append
  | look i around =>
    dsimp only [step, look]
    split
    · rename_i here
      split
      · refine Eq.trans ?_ idle
        exact set_inquiries here Inquiry.inboxId _ rfl
      · exact idle
    · exact idle

theorem filterMap_cons_toList {α β : Type} (f : α → Option β) (x : α) (rest : List α) :
    (x :: rest).filterMap f = (f x).toList ++ rest.filterMap f := by
  cases drawn : f x <;> simp [drawn]

/-- What is drawn now was not drawn before. -/
theorem fresh_of_distinct {asked later : List String} {drawn : Option String}
    (distinct : (asked ++ (drawn.toList ++ later)).Nodup) (inboxId : String) (own : drawn = some inboxId) :
    inboxId ∉ asked := by
  intro earlier
  have apart := (List.nodup_append.mp distinct).2.2 inboxId earlier inboxId
  exact apart (List.mem_append_left _ (by simp [own])) rfl

theorem run_sound (boxed : Boxed lead e) (kept : Kept e) {traffic : List Traffic}
    (ordinary : ∀ t ∈ traffic, t.Ordinary lead)
    (distinct : (e.inquiries.map Inquiry.inboxId ++ traffic.filterMap Traffic.inboxId?).Nodup) :
    Boxed lead (e.run traffic) ∧ Kept (e.run traffic) := by
  induction traffic generalizing e with
  | nil => exact ⟨boxed, kept⟩
  | cons t rest ih =>
    rw [filterMap_cons_toList] at distinct
    obtain ⟨boxed', kept'⟩ := step_sound boxed kept (ordinary t (.head _)) (fresh_of_distinct distinct)
    refine ih boxed' kept' (fun t there => ordinary t (.tail _ there)) ?_
    rw [step_asks, List.append_assoc]
    exact distinct

/-- Every inbox is that of one request, and what comes of a request comes of a reply to it. -/
structure Correlated (e : Exchange) : Prop where
  belongs : ∀ inbox, e.bus.inboxes.contains inbox = true → ∃ i, e.Waits i inbox ∧ ∀ j, e.Waits j inbox → j = i
  /-- A request that has returned has left no inbox behind. -/
  gone : ∀ q ∈ e.inquiries, ∀ result, q.state = .returned result → e.bus.inboxes.contains q.inbox = false
  answered : ∀ q ∈ e.inquiries, ∀ m, q.state = .returned (.ok m) → ∃ a ∈ e.answers,
    a.received.replyTo = some q.inbox ∧ a.result = .ok () ∧ m = a.received.replyWith a.id a.around.time a.payload
  /-- Of the replies to a request one goes into its inbox at most. -/
  once : ∀ q ∈ e.inquiries, e.answers.Pairwise fun a a' => ¬ (a.Fills q.inbox ∧ a'.Fills q.inbox)
  bounced : ∀ q ∈ e.inquiries, ∀ a ∈ e.answers, a.received.replyTo = some q.inbox → a.result ≠ .ok () → a.Bounces

/-- However requests, replies and everything else on the bus come about: if no two requests draw the same inbox, and no
subject of an agent looks like one, replies and requests belong together. -/
theorem replies_correlate (config : BusConfig) (traffic : List Traffic)
    (ordinary : ∀ t ∈ traffic, t.Ordinary config.subjectPrefix) (distinct : (traffic.filterMap Traffic.inboxId?).Nodup) :
    ((opened config).run traffic).Correlated := by
  obtain ⟨boxed, kept⟩ := run_sound (opened_boxed config) (opened_kept config) ordinary distinct
  generalize (opened config).run traffic = e at boxed kept
  refine ⟨fun inbox known => ?_, fun q there result ended => ?_, fun q there m ended => ?_, fun q _ => ?_,
    fun q _ a there addressed failed => ?_⟩
  · obtain ⟨i, waits⟩ := (boxed.belongs inbox).mp known
    exact ⟨i, waits, fun j waits' => waits_unique kept waits' waits⟩
  · cases known : e.bus.inboxes.contains q.inbox with
    | false => rfl
    | true =>
      obtain ⟨i, q', r, here, state, own⟩ := (boxed.belongs q.inbox).mp known
      obtain ⟨k, there'⟩ := List.getElem?_of_mem there
      have own' := kept.own q' (List.mem_of_getElem? here) r state
      obtain rfl := kept.unique here there' (own.symm.trans own')
      cases here.symm.trans there'
      exact nomatch ended.symm.trans state
  · obtain ⟨a, there', fills, own⟩ := kept.returned q there m ended
    exact ⟨a, there', fills.addressed, fills.taken, own.symm⟩
  · exact kept.once q.inbox (Bus.isInbox_inbox q.inboxId)
  · rcases kept.bounced a there q.inbox addressed (Bus.isInbox_inbox q.inboxId) with fills | bounces
    · exact absurd fills.taken failed
    · exact bounces

end Exchange

namespace Sample

def question : Message where
  id := "1"
  sender := "asker"
  recipient := "elder"
  topic := "mood"
  payload := .null
  sentAt := ⟨0, 0⟩

/-- The question as it comes to the elder. -/
def delivered : Message := { question with replyTo := some "_INBOX.first" }

/-- The elder answers three times, the last time for somebody who gave up. -/
def talk : List Traffic :=
  [.subscribe "elder" "mood", .request { token := 0 } { time := ⟨1, 0⟩ } question 1000 "first", .receive 1,
    .reply { token := 0 } { time := ⟨2, 0⟩ } delivered "2" (.str "steady"),
    .reply { token := 0 } { time := ⟨2, 0⟩ } delivered "3" (.str "uneasy"),
    .reply { token := 0 } { time := ⟨2, 0⟩, tokens := ⟨[{ cancelled := true }]⟩ } delivered "4" .null,
    .look 0 { time := ⟨3, 0⟩ }]

end Sample

namespace Exchange

theorem replies_correlate_in_talk :
    ((opened {}).run Sample.talk).Correlated ∧ ((opened {}).run Sample.talk).bus.inboxes = [] ∧
      ((opened {}).run Sample.talk).inquiries.map Inquiry.state =
        [.returned (.ok (Sample.delivered.replyWith "2" ⟨2, 0⟩ (.str "steady")))] := by
  have ordinary : ∀ t ∈ Sample.talk, t.Ordinary "agents." := by
    intro t there
    simp only [Sample.talk, List.mem_cons, List.not_mem_nil, or_false] at there
    rcases there with rfl | rfl | rfl | rfl | rfl | rfl | rfl
    case inr.inl => rfl
    all_goals trivial
  exact ⟨replies_correlate {} Sample.talk ordinary (by decide), rfl, rfl⟩

/-- A reply to a request need not fail for want of a requester: a replier who gave up is told that. -/
theorem late_reply_is_cancelled :
    ¬ ∀ q ∈ ((opened {}).run Sample.talk).inquiries, ∀ a ∈ ((opened {}).run Sample.talk).answers,
      a.received.replyTo = some q.inbox → a.result = .ok () ∨ ∃ text, a.result = .error (.communication text) := by
  intro every
  obtain ⟨q, asked, inbox⟩ : ∃ q ∈ ((opened {}).run Sample.talk).inquiries, q.inbox = "_INBOX.first" :=
    ⟨_, .head _, rfl⟩
  obtain ⟨a, there, addressed, result⟩ : ∃ a ∈ ((opened {}).run Sample.talk).answers,
      a.received.replyTo = some "_INBOX.first" ∧ a.result = .error .cancelled :=
    ⟨_, .tail _ (.tail _ (.head _)), rfl, rfl⟩
  rcases every q asked a there (inbox ▸ addressed) with taken | ⟨text, gone⟩
  · exact nomatch result.symm.trans taken
  · exact nomatch result.symm.trans gone

end Exchange
end Handover
