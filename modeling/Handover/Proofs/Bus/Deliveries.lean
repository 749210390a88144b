import Handover.Proofs.Bus.Delivery
import Mathlib.Logic.Function.Iterate

/-!
# A delivery step by step

Whoever delivers a message copies the list of its subject, offers the message to one after the other, and then takes those
off the list whose loops had ended; other things may happen in between. If nothing does, the message is delivered as at
once: `advances_deliver`. Whatever does, a step of a delivery thins the lists out and leaves the delivery as it has to be:
`advance_advances`.
-/

namespace Handover

namespace Bus

/-- Takes subscriptions off the list of a subject, of which nothing may be left. -/
def withdraw (b : Bus) (subject : String) (ids : List Nat) : Bus :=
  match b.subjects.get? subject with
  | none => b
  | some listed => { b with subjects := b.subjects.insert subject (listed.filter fun id => !ids.contains id) }

/-- Takes a subject away if nobody is listed on it. -/
def sweep (b : Bus) (subject : String) : Bus :=
  if b.subjects.get? subject = some [] then { b with subjects := b.subjects.erase subject } else b

end Bus

inductive Stage where
  | offering
  /-- Nobody was left on the list. -/
  | sweeping
  | ended
  deriving DecidableEq, Repr

/-- A message on its way to those who were listed on its subject. -/
structure Delivery where
  subject : String
  message : Message
  /-- To whom it has still to be offered. -/
  left : List Nat
  /-- Whose loops had ended when it was offered to them. -/
  closed : List Nat := []
  taken : Nat := 0
  stage : Stage := .offering

namespace Bus

/-- Begins to deliver a message to an ordinary subject. -/
def dispatch (b : Bus) (subject : String) (message : Message) : Bus × Delivery :=
  ({ b with stats := { b.stats with published := b.stats.published + 1 } },
    { subject, message, left := b.listed subject })

end Bus

namespace Delivery

def offer (d : Delivery) (b : Bus) (id : Nat) (rest : List Nat) : Bus × Delivery :=
  match b.offerTo id with
  | .accepted => (b.handTo d.message id, { d with left := rest, taken := d.taken + 1 })
  | .full => (b.handTo d.message id, { d with left := rest })
  | .closed => (b.handTo d.message id, { d with left := rest, closed := d.closed ++ [id] })

def finish (d : Delivery) (b : Bus) : Bus × Delivery := (b.countDelivered d.taken, { d with stage := .ended })

/-- The next step of a delivery. Nothing happens during a step. -/
def advance (d : Delivery) (b : Bus) : Bus × Delivery :=
  match d.stage, d.left with
  | .offering, id :: rest => d.offer b id rest
  | .offering, [] =>
    if d.closed.isEmpty then d.finish b
    else
      let b := b.withdraw d.subject d.closed
      if b.subjects.get? d.subject = some [] then (b, { d with stage := .sweeping }) else d.finish b
  | .sweeping, _ => d.finish (b.sweep d.subject)
  | .ended, _ => (b, d)

def advances (n : Nat) (p : Bus × Delivery) : Bus × Delivery := (fun p => p.2.advance p.1)^[n] p

variable {b : Bus} {d : Delivery} {subject : String} {ids : List Nat} {m : Message}

theorem advances_one (p : Bus × Delivery) : advances 1 p = p.2.advance p.1 := rfl

theorem advances_add (n k : Nat) (p : Bus × Delivery) : advances (n + k) p = advances k (advances n p) := by
  rw [advances, Nat.add_comm, Function.iterate_add_apply, advances, advances]

theorem advances_ended (ended : d.stage = .ended) (n : Nat) : advances n (b, d) = (b, d) := by
  refine Function.iterate_fixed ?_ n
  simp [advance, ended]

/-! ## Nothing in between -/

theorem sweep_withdraw (b : Bus) (subject : String) (ids : List Nat) :
    (b.withdraw subject ids).sweep subject = b.prune subject ids := by
  unfold Bus.withdraw Bus.prune
  cases found : b.subjects.get? subject with
  | none => simp [Bus.sweep, found]
  | some listed =>
    dsimp only
    cases left : listed.filter fun id => !ids.contains id with
    | nil => simp [Bus.sweep, Table.get?_insert_self, Table.erase_insert]
    | cons id rest => simp [Bus.sweep, Table.get?_insert_self]

theorem offer_eq (d : Delivery) (b : Bus) (id : Nat) (rest : List Nat) :
    d.offer b id rest = (b.handTo d.message id, { d with
      left := rest
      closed := d.closed ++ [id].filter (b.offerTo · == .closed)
      taken := d.taken + ([id].filter (b.offerTo · == .accepted)).length }) := by
  unfold offer
  split <;> rename_i offered <;> simp [offered]

/-- The message is offered to all, none of whom is there twice. -/
theorem advances_offer (once : d.left.Nodup) (offering : d.stage = .offering) (b : Bus) :
    advances d.left.length (b, d) = (d.left.foldl (fun b id => b.handTo d.message id) b, { d with
      left := []
      closed := d.closed ++ d.left.filter (b.offerTo · == .closed)
      taken := d.taken + (d.left.filter (b.offerTo · == .accepted)).length }) := by
  obtain ⟨subject, m, left, closed, taken, stage⟩ := d
  obtain rfl : stage = .offering := offering
  dsimp only at once ⊢
  induction left generalizing b closed taken with
  | nil => simp [advances]
  | cons id rest ih =>
    obtain ⟨fresh, once⟩ := List.nodup_cons.mp once
    have same : ∀ answer : Offer, rest.filter ((b.handTo m id).offerTo · == answer) =
        rest.filter (b.offerTo · == answer) := fun answer => by
      refine List.filter_congr fun other there => ?_
      have differ : other ≠ id := fun same => fresh (same ▸ there)
      rw [Bus.handTo_offerTo differ]
    rw [List.length_cons, Nat.add_comm, advances_add, advances_one]
    dsimp only [advance]
    rw [offer_eq]
    dsimp only
    rw [ih _ _ _ once, same, same, List.foldl_cons, List.append_assoc, ← List.filter_append, Nat.add_assoc,
      ← List.length_append, ← List.filter_append, List.singleton_append]

/-- A list is rewritten in at most two steps, and then the delivery is over. -/
theorem advances_prune (offering : d.stage = .offering) (none : d.left = []) (b : Bus) :
    advances 2 (b, d) = d.finish (if d.closed.isEmpty then b else b.prune d.subject d.closed) := by
  obtain ⟨subject, m, left, closed, taken, stage⟩ := d
  obtain rfl : stage = .offering := offering
  obtain rfl : left = [] := none
  have rest : ∀ (d : Delivery) b, advances 1 (d.finish b) = d.finish b := fun d b => advances_ended rfl 1
  rw [← sweep_withdraw, advances_add 1 1, advances_one (b, _)]
  dsimp only [advance]
  split
  · exact rest _ b
  · split
    · rfl
    · rename_i kept
      rw [rest, Bus.sweep, if_neg kept]

/-- A delivery that nothing interrupts does what a delivery does. -/
theorem advances_deliver (sound : b.Sound) (ordinary : Bus.isInbox subject = false) (m : Message) :
    (advances ((b.listed subject).length + 2) (b.dispatch subject m)).1 = (b.deliver subject m).2 ∧
      (advances ((b.listed subject).length + 2) (b.dispatch subject m)).2.taken = (b.deliver subject m).1 := by
  have once : (b.listed subject).Nodup := (sound.once subject).imp Nat.ne_of_lt
  have offered := advances_offer (d := (b.dispatch subject m).2) once rfl (b.dispatch subject m).1
  have length : (b.dispatch subject m).2.left.length = (b.listed subject).length := rfl
  rw [length] at offered
  rw [advances_add, offered, advances_prune rfl rfl, Bus.deliver, ordinary]
  simp only [Bool.false_eq_true, if_false, Bus.handToAll, finish, Bus.dispatch, List.nil_append, Nat.zero_add]
  exact ⟨rfl, rfl⟩

/-! ## Anything in between -/

end Delivery

namespace Bus
variable {b b' : Bus} {s : Subscription} {subject other agent topic : String} {id : Nat} {ids : List Nat} {m : Message}

/-- Subscriptions stay, and a loop that has ended does not begin again. -/
def Lasts (b b' : Bus) : Prop :=
  ∀ id s, b.subscription? id = some s → ∃ s', b'.subscription? id = some s' ∧ (s'.listening = true → s.listening = true)

theorem Lasts.ended (lasts : Lasts b b') (ended : b.Ended id) : b'.Ended id := by
  obtain ⟨s, known, deaf⟩ := ended
  obtain ⟨s', known', earlier⟩ := lasts id s known
  exact ⟨s', known', Bool.eq_false_iff.mpr fun listening => nomatch deaf.symm.trans (earlier listening)⟩

theorem Ended.deaf (ended : b.Ended id) : b.isListening id = false := by
  obtain ⟨s, known, deaf⟩ := ended
  rw [isListening, known]
  exact deaf

theorem Thins.lasts (thins : Thins b b') : Lasts b b' := by
  obtain ⟨⟨f, keeps, mapped, _⟩, _⟩ := thins
  intro id s known
  refine ⟨f s, ?_, keeps.listening s⟩
  rw [subscription?_map keeps.id mapped, known]
  rfl

theorem Joins.lasts (joins : Joins b agent topic s b') : Lasts b b' := by
  intro id t known
  refine ⟨t, ?_, fun listening => listening⟩
  rw [joins.subscription?, known]
  rfl

/-! ## The steps of a delivery -/

theorem handTo_thins (sound : b.Sound) (m : Message) (id : Nat) : Thins b (b.handTo m id) := by
  obtain ⟨subjects, capacity, _⟩ := handTo_rest b m id
  have listed : ∀ subject, (b.handTo m id).listed subject = b.listed subject := fun subject => by
    rw [Bus.listed, subjects, Bus.listed]
  refine ⟨⟨_, .ite (.push m), handTo_subscriptions b m id, fun s there => ?_⟩, fun subject => ?_,
    fun subject id' there _ => ?_⟩
  · rw [capacity]
    split
    · rename_i accepted
      obtain ⟨rfl, accepted⟩ := accepted
      rw [sound.offerTo there, Subscription.offer_accepted_iff] at accepted
      rw [Subscription.push, List.length_append]
      exact accepted.2
    · exact sound.bounded s there
  · exact listed subject ▸ List.Sublist.refl _
  · exact listed subject ▸ there

theorem withdraw_get? (b : Bus) (subject other : String) (ids : List Nat) :
    (b.withdraw subject ids).subjects.get? other =
      if other = subject then (b.subjects.get? subject).map (·.filter fun id => !ids.contains id)
      else b.subjects.get? other := by
  unfold withdraw
  split
  · rename_i missing
    split
    · rename_i same
      rw [same, missing]
      rfl
    · rfl
  · rename_i found
    rw [found]
    exact Table.get?_insert subject other _ b.subjects

theorem sweep_get? (b : Bus) (subject other : String) :
    (b.sweep subject).subjects.get? other =
      if other = subject ∧ b.subjects.get? subject = some [] then none else b.subjects.get? other := by
  unfold sweep
  by_cases emptied : b.subjects.get? subject = some []
  · simp [emptied, Table.get?_erase]
  · simp [emptied]

theorem sweep_fills (b : Bus) (subject : String) : (b.sweep subject).subjects.get? subject ≠ some [] := by
  rw [sweep_get?]
  split
  · exact nofun
  · rename_i kept
    exact fun empty => kept ⟨rfl, empty⟩

theorem withdraw_listed (b : Bus) (subject other : String) (ids : List Nat) :
    (b.withdraw subject ids).listed other =
      if other = subject then (b.listed subject).filter (!ids.contains ·) else b.listed other := by
  rw [Bus.listed, withdraw_get?, Bus.listed, Bus.listed]
  split
  · cases b.subjects.get? subject <;> rfl
  · rfl

theorem sweep_listed (b : Bus) (subject other : String) : (b.sweep subject).listed other = b.listed other := by
  rw [Bus.listed, sweep_get?, Bus.listed]
  split
  · rename_i emptied
    rw [emptied.1, emptied.2]
    rfl
  · rfl

theorem withdraw_thins (sound : b.Sound) (subject : String) (ended : ∀ id ∈ ids, b.Ended id) :
    Thins b (b.withdraw subject ids) := by
  have rest : (b.withdraw subject ids).subscriptions = b.subscriptions ∧
      (b.withdraw subject ids).capacity = b.capacity := by
    unfold withdraw
    split <;> exact ⟨rfl, rfl⟩
  refine sound.thins rest.1 rest.2 (fun other => ?_) fun other id there listening => ?_
  · rw [withdraw_listed]
    split
    · rename_i same
      exact same ▸ List.filter_sublist
    · exact List.Sublist.refl _
  · rw [withdraw_listed]
    split
    · rename_i same
      have apart : id ∉ ids := fun gone => nomatch listening.symm.trans (ended id gone).deaf
      simp [← same, there, apart]
    · exact there

theorem sweep_thins (sound : b.Sound) (subject : String) : Thins b (b.sweep subject) := by
  have rest : (b.sweep subject).subscriptions = b.subscriptions ∧ (b.sweep subject).capacity = b.capacity := by
    unfold sweep
    split <;> exact ⟨rfl, rfl⟩
  exact sound.thins rest.1 rest.2 (fun other => sweep_listed b subject other ▸ List.Sublist.refl _)
    fun other _ there _ => sweep_listed b subject other ▸ there

end Bus

namespace Delivery
variable {b b' : Bus} {d d' : Delivery} {subject : String} {m : Message}

/-- The delivery is about to take an empty list away. -/
def Sweeps (d : Delivery) (subject : String) : Prop := d.stage = .sweeping ∧ d.subject = subject

/-- The message is offered to subscriptions, and only those are taken off whose loops have ended. -/
structure Fits (d : Delivery) (b : Bus) : Prop where
  left : ∀ id ∈ d.left, ∃ s, b.subscription? id = some s
  closed : ∀ id ∈ d.closed, b.Ended id

/-- What a step of a delivery comes to. -/
structure Advances (d : Delivery) (b b' : Bus) (d' : Delivery) : Prop where
  thins : b.Thins b'
  lead : b'.subjectPrefix = b.subjectPrefix
  fits : d'.Fits b'
  /-- A list that it leaves empty it is about to take away, or it was empty before for another's sake. -/
  emptied : ∀ subject, b'.subjects.get? subject = some [] →
    d'.Sweeps subject ∨ b.subjects.get? subject = some [] ∧ ¬ d.Sweeps subject

theorem Fits.lasts (fits : d.Fits b) (lasts : b.Lasts b') : d.Fits b' where
  left := by
    intro id there
    obtain ⟨s, known⟩ := fits.left id there
    obtain ⟨s', known', _⟩ := lasts id s known
    exact ⟨s', known'⟩
  closed := fun id there => lasts.ended (fits.closed id there)

theorem dispatch_fits (sound : b.Sound) (subject : String) (m : Message) :
    (b.dispatch subject m).2.Fits (b.dispatch subject m).1 where
  left := by
    intro id there
    obtain ⟨s, known, rfl, _⟩ := sound.own subject id there
    exact ⟨s, sound.subscription? known⟩
  closed := nofun

theorem offer_advances (sound : b.Sound) (fits : d.Fits b) (offering : d.stage = .offering) {id : Nat}
    {rest : List Nat} (next : d.left = id :: rest) : d.Advances b (d.offer b id rest).1 (d.offer b id rest).2 := by
  have thins := Bus.handTo_thins sound d.message id
  rw [offer_eq]
  refine ⟨thins, ?_, ⟨fun id' there => ?_, fun id' there => ?_⟩, fun subject emptied => .inr ⟨?_, ?_⟩⟩
  · exact (Bus.handTo_same b d.message id).lead
  · exact (fits.lasts thins.lasts).left id' (next ▸ .tail _ there)
  · rcases List.mem_append.mp there with earlier | own
    · exact (fits.lasts thins.lasts).closed id' earlier
    · obtain ⟨this, closed⟩ := List.mem_filter.mp own
      obtain rfl := List.mem_singleton.mp this
      obtain ⟨s, known⟩ := fits.left id' (next ▸ .head _)
      rw [beq_iff_eq, Bus.offerTo, known, Subscription.offer_closed_iff] at closed
      exact thins.lasts.ended ⟨s, known, closed⟩
  · exact (Bus.handTo_rest b d.message id).1 ▸ emptied
  · rintro ⟨sweeping, _⟩
    cases offering.symm.trans sweeping

theorem finish_advances (fits : d.Fits b) (thins : b.Thins b') (lead : b'.subjectPrefix = b.subjectPrefix)
    (emptied : ∀ subject, b'.subjects.get? subject = some [] →
      b.subjects.get? subject = some [] ∧ ¬ d.Sweeps subject) :
    d.Advances b (d.finish b').1 (d.finish b').2 := by
  have lasting := fits.lasts thins.lasts
  exact ⟨⟨thins.mapped, thins.listed, thins.kept⟩, lead, ⟨lasting.left, lasting.closed⟩,
    fun subject empty => .inr (emptied subject empty)⟩

theorem prune_advances (sound : b.Sound) (fits : d.Fits b) (offering : d.stage = .offering) (none : d.left = [])
    (some' : d.closed.isEmpty = false) : d.Advances b (d.advance b).1 (d.advance b).2 := by
  have still : ∀ subject, ¬ d.Sweeps subject := fun _ sweeps => nomatch offering.symm.trans sweeps.1
  have thins := Bus.withdraw_thins sound d.subject fits.closed
  have lasting := fits.lasts thins.lasts
  have lead : (b.withdraw d.subject d.closed).subjectPrefix = b.subjectPrefix := by
    unfold Bus.withdraw
    split <;> rfl
  have others : ∀ other, other ≠ d.subject → (b.withdraw d.subject d.closed).subjects.get? other =
      b.subjects.get? other := fun other differ => by rw [Bus.withdraw_get?, if_neg differ]
  unfold advance
  rw [offering, none]
  simp only [some', Bool.false_eq_true, if_false]
  split
  · refine ⟨thins, lead, ⟨nofun, lasting.closed⟩, fun other empty => ?_⟩
    by_cases own : other = d.subject
    · exact .inl ⟨rfl, own.symm⟩
    · exact .inr ⟨others other own ▸ empty, still other⟩
  · rename_i kept
    refine finish_advances fits thins lead fun other empty => ?_
    have own : other ≠ d.subject := by
      rintro rfl
      exact kept empty
    exact ⟨others other own ▸ empty, still other⟩

theorem sweep_advances (sound : b.Sound) (fits : d.Fits b) :
    d.Advances b (d.finish (b.sweep d.subject)).1 (d.finish (b.sweep d.subject)).2 := by
  have lead : (b.sweep d.subject).subjectPrefix = b.subjectPrefix := by
    unfold Bus.sweep
    split <;> rfl
  refine finish_advances fits (Bus.sweep_thins sound d.subject) lead fun other empty => ⟨?_, ?_⟩
  · rw [Bus.sweep_get?] at empty
    split at empty
    · cases empty
    · exact empty
  · rintro ⟨_, rfl⟩
    exact Bus.sweep_fills b d.subject empty

theorem advance_advances (sound : b.Sound) (fits : d.Fits b) : d.Advances b (d.advance b).1 (d.advance b).2 := by
  have here : b.Thins b := Bus.SameQueues.thins ⟨rfl, rfl, rfl, rfl⟩ sound
  cases stage : d.stage with
  | offering =>
    have still : ∀ subject, ¬ d.Sweeps subject := fun _ sweeps => nomatch stage.symm.trans sweeps.1
    cases left : d.left with
    | cons id rest =>
      have offer := offer_advances sound fits stage left
      unfold advance
      rw [stage, left]
      exact offer
    | nil =>
      cases closed : d.closed.isEmpty with
      | false => exact prune_advances sound fits stage left closed
      | true =>
        unfold advance
        rw [stage, left]
        simp only [closed, if_true]
        exact finish_advances fits here rfl fun subject empty => ⟨empty, still subject⟩
  | sweeping =>
    unfold advance
    rw [stage]
    exact sweep_advances sound fits
  | ended =>
    unfold advance
    rw [stage]
    exact ⟨here, rfl, fits, fun subject empty => .inr ⟨empty, fun sweeps => nomatch stage.symm.trans sweeps.1⟩⟩

end Delivery
end Handover
