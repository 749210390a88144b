import Handover.Proofs.Call.Ping

/-!
# Somebody always holds the state, and only one is active

At every moment of a call the state is with the old agent or with the new one. The new agent holds it only after
it has answered the ping, and then the old one is paused or gone.
-/

namespace Handover

namespace Swap
variable {s s' : Swap} {c c' : Coordinator} {around : Surroundings} {heard : Except Error (Option Message)}
  {before : Option Registration} {agents : Table Registration} {k : Standing} {session : String}

/-- The history of the agent has the entry of a transfer by the session. -/
def Bears (session : String) (a : Registration) : Prop :=
  ∃ entry ∈ a.state.history, entry.event = "hot_swap_transfer" ∧
    entry.details.get? "swap_id" = some (.str session)

/-- The state is what the session hands over from the old agent. -/
def Passed (session oldName newName : String) (changes : Table Json) (old : Registration) (state : AgentState) :
    Prop :=
  ∃ captured transferred,
    state = handed (old.state.recordHistory (captureEntry session newName captured)) changes session oldName transferred

theorem handed_bears {a : Registration} {snapshot : AgentState} {changes : Table Json} {oldName : String}
    {now : Instant} (state : a.state = handed snapshot changes session oldName now) : Bears session a := by
  refine ⟨transferEntry session oldName now, by simp [state, handed, AgentState.recordHistory], rfl, ?_⟩
  simp [transferEntry, HistoryEntry.withDetail, Table.get?_insert]

theorem successor_unmarked (old : Registration) (newName : String) (changes : Table Json) (now : Instant) :
    ¬ Bears session (successor old newName changes now) := by
  rintro ⟨entry, there, _⟩
  exact absurd there List.not_mem_nil

theorem verified_of_late (on : OnCourse s) (standing : s.phase.standing? = some k)
    (late : k = .handed ∨ k = .removed) : s.Verified := by
  have milestone : ∃ m, s.phase.milestone? = some m ∧ SwapStage.verify ∈ m.left := by
    unfold SwapPhase.standing? at standing
    split at standing <;> cases standing <;> simp at late
    all_goals
      rename_i phase
      rw [phase]
      exact ⟨_, rfl, by decide⟩
  obtain ⟨m, milestone, left⟩ := milestone
  right
  rw [(on.reached milestone).lines]
  exact (Milestone.completed_mem_linesOf (by decide)).mpr left

theorem verified_of_done (on : OnCourse s) (phase : s.phase = .closing ∨ s.phase = .finished)
    (sound : s.error = none) : s.Verified := by
  rcases phase with closing | finished
  · rcases closing_ended on closing with won | ⟨e, lost⟩
    · right
      rw [won.lines]
      decide
    · rw [lost.error] at sound
      cases sound
  · exact verified_of_over on (by simp [isOver, finished]) sound

theorem moves_undoing (moves : Moves s c around heard s' c') (undoing : s'.phase = .undoing) :
    c'.registry.agents = c.registry.agents := by
  cases moves with
  | entered => split at undoing <;> cases undoing
  | stopped | vanished | unfinished | rested => rfl
  | _ => cases undoing

end Swap

/-- What the two names of an order show, if `old` is what the call found. -/
structure Order.Held (o : Order) (old : Registration) (agents : Table Registration) : Prop where
  somebody : (∃ a, agents.get? o.oldName = some a ∧ a.state = old.state) ∨
    ∃ a, agents.get? o.newName = some a ∧ Swap.Bears o.session a ∧
      Swap.Passed o.session o.oldName o.newName o.changes old a.state
  genuine : ∀ a, agents.get? o.newName = some a → Swap.Bears o.session a →
    Swap.Passed o.session o.oldName o.newName o.changes old a.state
  alone : ∀ a, agents.get? o.newName = some a → Swap.Bears o.session a →
    agents.get? o.oldName = none ∨ ∃ b, agents.get? o.oldName = some b ∧ b.status = .paused
  revived : ∀ b, agents.get? o.oldName = some b → b.status = .active →
    ∀ a, agents.get? o.newName = some a → ¬ Swap.Bears o.session a

/-- An agent under the new name that bears the mark of the session got it after it answered the ping. -/
def Order.Earned (o : Order) (s : Swap) (c : Coordinator) : Prop :=
  ∀ a, c.registry.agents.get? o.newName = some a → Swap.Bears o.session a →
    s.Verified ∧ Swap.Passed o.session o.oldName o.newName o.changes s.old a.state

namespace Call
variable {o : Order} {c c' c'' : Coordinator} {s s' : Swap} {turns : List Turn} {around : Surroundings}
  {heard : Except Error (Option Message)} {agents : Table Registration} {old a : Registration}

theorem held_unmarked (found : agents.get? o.oldName = some a) (state : a.state = old.state)
    (unmarked : ∀ b, agents.get? o.newName = some b → ¬ Swap.Bears o.session b) : o.Held old agents where
  somebody := .inl ⟨a, found, state⟩
  genuine b there bears := (unmarked b there bears).elim
  alone b there bears := (unmarked b there bears).elim
  revived _ _ _ b there := unmarked b there

theorem held_paused (found : agents.get? o.oldName = some { old with status := .paused })
    (genuine : ∀ b, agents.get? o.newName = some b → Swap.Bears o.session b →
      Swap.Passed o.session o.oldName o.newName o.changes old b.state) : o.Held old agents where
  somebody := .inl ⟨_, found, rfl⟩
  genuine
  alone _ _ _ := .inr ⟨_, found, rfl⟩
  revived b there active := by
    rw [found] at there
    cases there
    cases active

theorem held_removed (gone : agents.get? o.oldName = none) (there : agents.get? o.newName = some a)
    (bears : Swap.Bears o.session a) (passed : Swap.Passed o.session o.oldName o.newName o.changes old a.state) :
    o.Held old agents where
  somebody := .inr ⟨a, there, bears, passed⟩
  genuine b also _ := by
    rw [there] at also
    cases also
    exact passed
  alone _ _ _ := .inl gone
  revived b found := by
    rw [gone] at found
    cases found

theorem heir_passed (fits : o.Fits c s) (enrolled captured transferred : Instant) :
    Swap.Bears o.session (s.heir enrolled captured transferred) ∧
      Swap.Passed o.session o.oldName o.newName o.changes s.old (s.heir enrolled captured transferred).state := by
  have passed : Swap.Passed s.session.id s.session.oldName s.session.newName s.changes s.old
      (s.heir enrolled captured transferred).state := ⟨captured, transferred, rfl⟩
  have bears : Swap.Bears s.session.id (s.heir enrolled captured transferred) := Swap.handed_bears rfl
  rw [fits.id, fits.oldName, fits.newName, fits.changes] at passed
  rw [fits.id] at bears
  exact ⟨bears, passed⟩

section Run
variable (unused : ∀ a, c.registry.agents.get? o.newName = some a → ¬ Swap.Bears o.session a)
include unused

theorem earned_of_kept (kept : o.Kept c s c') (onward : s.phase ≠ .undoing) : o.Earned s c' := by
  obtain ⟨order, fits⟩ := kept
  have newName := fits.newName
  intro a there bears
  rw [← newName] at there
  have marked : c'.registry.agents.get? s.session.newName ≠ c.registry.agents.get? o.newName := by
    intro same
    exact unused a (same.symm.trans there) bears
  cases order.stands with
  | @ahead k standing at' =>
    cases k with
    | untouched | paused => exact (marked at'.new).elim
    | enrolled =>
      obtain ⟨enrolled, entry⟩ := at'.new
      rw [entry] at there
      cases there
      exact (Swap.successor_unmarked _ _ _ _ bears).elim
    | handed | removed =>
      obtain ⟨enrolled, captured, transferred, entry⟩ := at'.new
      rw [entry] at there
      cases there
      exact ⟨Swap.verified_of_late order.course standing (by simp), (heir_passed fits _ _ _).2⟩
  | undoing phase => exact (onward phase).elim
  | reviving _ _ new => exact (marked new).elim
  | back _ _ _ new => exact (marked new).elim
  | done phase error at' =>
    obtain ⟨enrolled, captured, transferred, entry⟩ := at'.new
    rw [entry] at there
    cases there
    exact ⟨Swap.verified_of_done order.course phase error, (heir_passed fits _ _ _).2⟩

theorem own_earned (kept : o.Kept c s c') (earned : o.Earned s c') (moves : Swap.Moves s c' around heard s' c'') :
    o.Earned s' c'' := by
  have kept' := own_kept kept moves
  -- While a swap is undoing, its phase does not say whether the new agent has the state: the turn before does.
  by_cases undoing : s'.phase = .undoing
  · intro a there bears
    rw [Swap.moves_undoing moves undoing] at there
    obtain ⟨verified, passed⟩ := earned a there bears
    have same : s'.old = s.old := Option.some.inj (kept'.fits.old.symm.trans kept.fits.old)
    exact ⟨Swap.moves_verified kept.order.course verified moves, same ▸ passed⟩
  · exact earned_of_kept unused kept' undoing

theorem held_of_kept (kept : o.Kept c s c') (earned : o.Earned s c') : o.Held s.old c'.registry.agents := by
  obtain ⟨order, fits⟩ := kept
  have paused : c'.registry.agents.get? s.session.oldName = some s.pausedOld → o.Held s.old c'.registry.agents := by
    intro found
    rw [fits.oldName] at found
    exact held_paused found fun b there bears => (earned b there bears).2
  have unmarked : c'.registry.agents.get? s.session.newName = c.registry.agents.get? o.newName →
      ∀ b, c'.registry.agents.get? o.newName = some b → ¬ Swap.Bears o.session b := by
    intro same b there
    rw [fits.newName, there] at same
    exact unused b same.symm
  have removed : Swap.StandsAt (c.registry.agents.get? o.newName) .removed s c'.registry.agents →
      o.Held s.old c'.registry.agents := by
    intro at'
    obtain ⟨enrolled, captured, transferred, entry⟩ := at'.new
    obtain ⟨bears, passed⟩ := heir_passed fits enrolled captured transferred
    rw [fits.newName] at entry
    have gone : c'.registry.agents.get? s.session.oldName = none := at'.old
    rw [fits.oldName] at gone
    exact held_removed gone entry bears passed
  cases order.stands with
  | @ahead k standing at' =>
    cases k with
    | untouched =>
      have found : c'.registry.agents.get? s.session.oldName = some s.old := at'.old
      rw [fits.oldName] at found
      exact held_unmarked found rfl (unmarked at'.new)
    | paused | enrolled | handed => exact paused at'.old
    | removed => exact removed at'
  | undoing _ found => exact paused found
  | reviving _ found => exact paused found
  | back _ _ found new =>
    rw [fits.oldName] at found
    refine held_unmarked found ?_ (unmarked new)
    split <;> rfl
  | done _ _ at' => exact removed at'

end Run

theorem gone_verified (kept : o.Kept c s c') (gone : c'.registry.agents.get? o.oldName = none) : s.Verified := by
  obtain ⟨order, fits⟩ := kept
  rw [← fits.oldName] at gone
  cases order.stands with
  | @ahead k standing at' =>
    have entry := at'.old
    rw [gone] at entry
    cases k with
    | removed => exact Swap.verified_of_late order.course standing (.inr rfl)
    | _ => cases entry
  | undoing _ found | reviving _ found | back _ _ found =>
    rw [gone] at found
    cases found
  | done phase error => exact Swap.verified_of_done order.course phase error

/-- At every moment of a call somebody holds the state, the old agent is not active beside a new one that holds
it, and the new one got it, and the old one is removed, only after the answer to the ping. -/
theorem always_one_holder (made : c.registry.Made)
    (spared : (o.start c).Always (Spares [o.oldName, o.newName]) turns)
    (found : c.registry.agents.get? o.oldName = some old)
    (unused : ∀ a, c.registry.agents.get? o.newName = some a → ¬ Swap.Bears o.session a) :
    o.Held old ((o.start c).play turns).agents ∧
      ((((o.start c).play turns).agents.get? o.oldName = none ∨
        ∃ a, ((o.start c).play turns).agents.get? o.newName = some a ∧ Swap.Bears o.session a) →
          (o.start c).Sometime (Answered o.newName) turns) := by
  cases begun : (o.start c).swap with
  | error e =>
    have oldEntry := refused_spares begun spared (.head _)
    have newEntry := refused_spares begun spared (.tail _ (.head _))
    have unmarked : ∀ b, ((o.start c).play turns).agents.get? o.newName = some b → ¬ Swap.Bears o.session b :=
      fun b there => unused b (newEntry.symm.trans there)
    refine ⟨held_unmarked (oldEntry.trans found) rfl unmarked, ?_⟩
    rintro (gone | ⟨a, there, bears⟩)
    · rw [oldEntry] at gone
      exact absurd (found.symm.trans gone) nofun
    · exact (unmarked a there bears).elim
  | ok s₀ =>
    obtain ⟨s, ends⟩ := play_begun begun turns
    have keeps : Keeps (Spares [o.oldName, o.newName]) fun s c' => o.Kept c s c' ∧ o.Earned s c' := by
      refine ⟨?_, ?_⟩
      · rintro s c' around heard s' c'' ⟨kept, earned⟩ _ moves
        exact ⟨own_kept kept moves, own_earned unused kept earned moves⟩
      · rintro s c' others ⟨kept, earned⟩ spared
        have same := spared o.newName (.tail _ (.head _))
        exact ⟨others_kept kept spared, fun a there => earned a (same.symm.trans there)⟩
    have start : (o.start c).Holds fun s c' => o.Kept c s c' ∧ o.Earned s c' :=
      fun s begun => ⟨start_kept made s begun, fun a there bears => (unused a there bears).elim⟩
    obtain ⟨kept, earned⟩ := play_keeps keeps start spared s ends
    have same : s.old = old := Option.some.inj (kept.fits.old.symm.trans found)
    refine ⟨same ▸ held_of_kept unused kept earned, ?_⟩
    rintro (gone | ⟨a, there, bears⟩)
    · exact play_verified_iff.mp ⟨s, ends, gone_verified kept gone⟩
    · exact play_verified_iff.mp ⟨s, ends, (earned a there bears).1⟩

theorem always_one_holder_with_reply :
    Sample.order.Held Sample.worker
        ((Sample.order.start Sample.coordinator).play (Sample.turns (.ok (some Sample.alive)))).agents ∧
      (Sample.order.start Sample.coordinator).Sometime (Answered "heir") (Sample.turns (.ok (some Sample.alive))) := by
  have unused : ∀ a, Sample.coordinator.registry.agents.get? "heir" = some a → ¬ Swap.Bears "swap" a := by
    intro a there
    cases there
    rintro ⟨entry, none, _⟩
    cases none
  obtain ⟨held, earned⟩ := always_one_holder Sample.made (Sample.spared (.ok (some Sample.alive))) rfl unused
  exact ⟨held, earned (.inl rfl)⟩

end Call
end Handover
