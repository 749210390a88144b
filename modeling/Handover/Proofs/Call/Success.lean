import Handover.Proofs.Call.Ping
import Handover.Proofs.Swap.Takeover

/-!
# When a call succeeds, and what it leaves

A call whose entries nobody else writes fails only where its caller gave up, or for want of an answer to its
ping. A call that succeeds has put a successor that took over the old agent's state in its place.
-/

namespace Handover

namespace Swap
variable {s s' : Swap} {c c' : Coordinator} {around : Surroundings} {heard : Except Error (Option Message)}
  {before : Option Registration} {e : Error}

theorem moves_failed (failed : s.error.isSome = true) (moves : Moves s c around heard s' c') :
    s'.error.isSome = true := by
  cases moves <;> simp_all [failWith]

theorem gaveUp_fails (heeds : s.heedsCaller = true) (gone : s.context.check around.tokens around.moment = .error e)
    (moves : Moves s c around heard s' c') : s'.error.isSome = true := by
  cases moves with
  | entered phase allowed =>
    rename_i stage _
    cases stage <;> simp_all [heedsCaller, mayEnter]
  | left phase allowed =>
    rename_i stage _ _
    cases stage <;> simp_all [heedsCaller]
  | stopped | vanished | unfinished => rfl
  | rested phase => rcases phase with phase | phase <;> simp [heedsCaller, phase] at heeds
  | _ => simp_all [heedsCaller]

theorem fails_cases (order : InOrder before s c.registry.agents) (moves : Moves s c around heard s' c')
    (sound : s.error = none) (failed : s'.error.isSome = true) :
    (s.heedsCaller = true ∧ ∃ e, s.context.check around.tokens around.moment = .error e) ∨
      (s.phase = .asking ∧ ∃ e, s.verdict heard = .error e) := by
  cases moves with
  | vanished phase missing => exact (vanished_absurd order phase missing).elim
  | unfinished phase barred => exact (unfinished_absurd order.course phase barred).elim
  | stopped why =>
    rcases stops_reason order why with ⟨heeds, gone⟩ | ⟨asking, bad⟩
    · exact .inl ⟨heeds, _, gone⟩
    · exact .inr ⟨asking, _, bad⟩
  | _ => simp [sound] at failed

theorem asking_unverified (on : OnCourse s) (asking : s.phase = .asking) : ¬ s.Verified := by
  have reached := on.reached (m := .within .verify) (by rw [asking]; rfl)
  rintro (leaving | line)
  · rw [asking] at leaving
    cases leaving
  · rw [reached.lines] at line
    exact absurd ((Milestone.completed_mem_linesOf (by decide)).mp line) (by decide)

theorem failed_unverified (order : InOrder before s c.registry.agents) (moves : Moves s c around heard s' c')
    (patient : s.heedsCaller = true → s.context.check around.tokens around.moment = .ok ())
    (unverified : s.error.isSome = true → ¬ s.Verified) (failed : s'.error.isSome = true) : ¬ s'.Verified := by
  intro verified
  have past := verified_moves order.course moves verified
  cases error : s.error with
  | some e =>
    rcases past with verified | ⟨asking, _⟩
    · exact unverified (by simp [error]) verified
    · have reached := order.course.reached (m := .within .verify) (by rw [asking]; rfl)
      rw [reached.error] at error
      cases error
  | none =>
    rcases fails_cases order moves error failed with ⟨heeds, e, gone⟩ | ⟨asking, e, bad⟩
    · rw [patient heeds] at gone
      cases gone
    · rcases past with verified | ⟨_, passed⟩
      · exact asking_unverified order.course asking verified
      · rw [bad] at passed
        cases passed

end Swap

namespace Call
variable {o : Order} {c : Coordinator} {s : Swap} {call : Call} {turns : List Turn} {name : String}

/-- The caller has not given up, if this is a turn at which the swap looks. -/
def Patient (call : Call) : Turn → Prop
  | .own around _ => ∀ s, call.swap = .ok s → s.heedsCaller = true →
      s.context.check around.tokens around.moment = .ok ()
  | .others _ => True

theorem sound_patient (ends : (call.play turns).swap = .ok s) (sound : s.error = none) :
    call.Always Patient turns := by
  have failed : ∀ s', (call.play turns).swap = .ok s' → ¬ s'.error.isSome = true := by
    intro s' same
    rw [ends] at same
    cases same
    simp [sound]
  refine (always_before (fun _ _ _ _ _ _ failed moves => Swap.moves_failed failed moves) failed).imp ?_
  intro call t early
  cases t with
  | others => trivial
  | own around heard =>
    intro s begun heeds
    cases gone : s.context.check around.tokens around.moment with
    | ok u => rfl
    | error e =>
      have next := congrArg swap (turn_own begun around heard)
      exact (early _ next (Swap.gaveUp_fails heeds gone Swap.advance_moves)).elim

theorem failed_unanswered (made : c.registry.Made)
    (spared : (o.start c).Always (Spares [o.oldName, o.newName]) turns) (patient : (o.start c).Always Patient turns)
    (ends : ((o.start c).play turns).swap = .ok s) (failed : s.error.isSome = true) : ¬ s.Verified := by
  have keeps : Keeps (fun call t => Spares [o.oldName, o.newName] call t ∧ Patient call t)
      fun s c' => o.Kept c s c' ∧ (s.error.isSome = true → ¬ s.Verified) := by
    refine ⟨?_, ?_⟩
    · rintro s c' around heard s' c'' ⟨kept, unverified⟩ ⟨_, patient⟩ moves
      exact ⟨own_kept kept moves, Swap.failed_unverified kept.order moves (patient s rfl) unverified⟩
    · rintro s c' others ⟨kept, unverified⟩ ⟨spared, _⟩
      exact ⟨others_kept kept spared, unverified⟩
  have start : (o.start c).Holds fun s c' => o.Kept c s c' ∧ (s.error.isSome = true → ¬ s.Verified) :=
    fun s begun => ⟨start_kept made s begun, fun _ verified => start_unverified ⟨s, begun, verified⟩⟩
  exact (play_keeps keeps start (spared.and patient) s ends).2 failed

theorem play_elsewhere (made : c.registry.Made)
    (spared : (o.start c).Always (Spares [o.oldName, o.newName]) turns) (also : (o.start c).Always (Spares [name]) turns)
    (notOld : name ≠ o.oldName) (notNew : name ≠ o.newName) (ends : ((o.start c).play turns).swap = .ok s) :
    ((o.start c).play turns).agents.get? name = c.registry.agents.get? name := by
  have keeps : Keeps (fun call t => Spares [o.oldName, o.newName] call t ∧ Spares [name] call t)
      fun s c' => o.Kept c s c' ∧ c'.registry.agents.get? name = c.registry.agents.get? name := by
    refine ⟨?_, ?_⟩
    · rintro s c' around heard s' c'' ⟨kept, same⟩ _ moves
      have still := Swap.moves_elsewhere kept.order moves (kept.fits.oldName ▸ notOld) (kept.fits.newName ▸ notNew)
      exact ⟨own_kept kept moves, still.trans same⟩
    · rintro s c' others ⟨kept, same⟩ ⟨spared, also⟩
      exact ⟨others_kept kept spared, (also name (.head _)).trans same⟩
  have start : (o.start c).Holds
      fun s c' => o.Kept c s c' ∧ c'.registry.agents.get? name = c.registry.agents.get? name :=
    fun s begun => ⟨start_kept made s begun, rfl⟩
  exact (play_keeps keeps start (spared.and also) s ends).2

/-- A call that goes on often enough returns; it returns a completed record if, and only if, the names make
sense, the old agent is there, the caller is patient and the new agent answers the ping; and then the new agent
has taken over from the old one, and nothing else has changed. -/
theorem completes_exactly (made : c.registry.Made)
    (spared : (o.start c).Always (Spares [o.oldName, o.newName]) turns) :
    (SwapPhase.opening.turnsLeft ≤ turns.countP Turn.isOwn →
      ((o.start c).play turns).outcome?.isSome = true) ∧
    (∀ outcome, ((o.start c).play turns).outcome? = some outcome →
      ((∃ record, outcome = .completed record) ↔
        o.Sound c ∧ (o.start c).Always Patient turns ∧ (o.start c).Sometime (Answered o.newName) turns)) ∧
    (∀ record, ((o.start c).play turns).outcome? = some (.completed record) →
      ∃ old heir, c.registry.agents.get? o.oldName = some old ∧
        ((o.start c).play turns).agents.get? o.oldName = none ∧
        ((o.start c).play turns).agents.get? o.newName = some heir ∧
        Swap.Takeover o.changes o.session o.oldName o.newName old heir ∧
        ∀ name, name ≠ o.oldName → name ≠ o.newName → (o.start c).Always (Spares [name]) turns →
          ((o.start c).play turns).agents.get? name = c.registry.agents.get? name) := by
  refine ⟨play_returns o c, ?_, ?_⟩
  · intro outcome ended
    constructor
    · rintro ⟨record, rfl⟩
      obtain ⟨s, ends, atEnd, sound, _⟩ := completed_cases ended
      have verified := Swap.verified_of_over (play_onCourse o c turns s ends) atEnd sound
      exact ⟨sound_of_ends ends, sound_patient ends sound, play_verified_iff.mp ⟨s, ends, verified⟩⟩
    · rintro ⟨_, patient, answered⟩
      obtain ⟨s, ends, verified⟩ := play_verified_iff.mpr answered
      cases outcome with
      | completed record => exact ⟨record, rfl⟩
      | failed e session =>
        rcases failed_cases ended with ⟨refused, _⟩ | ⟨s', ends', _, failed, _⟩
        · rw [refused] at ends
          cases ends
        · rw [ends] at ends'
          cases ends'
          have failed : s.error.isSome = true := by simp [failed]
          exact (failed_unanswered made spared patient ends failed verified).elim
  · intro record ended
    obtain ⟨s, ends, atEnd, sound, _⟩ := completed_cases ended
    obtain ⟨order, fits⟩ := play_kept made spared s ends
    have stood := (Swap.over_entries order.stands atEnd).2 sound
    obtain ⟨enrolled, captured, transferred, there⟩ := stood.new
    have gone : ((o.start c).play turns).agents.get? s.session.oldName = none := stood.old
    have takeover := Swap.heir_takeover s (fits.changes ▸ o.distinct) enrolled captured transferred
    rw [fits.oldName] at gone
    rw [fits.newName] at there
    rw [fits.changes, fits.id, fits.oldName, fits.newName] at takeover
    exact ⟨s.old, _, fits.old, gone, there, takeover, fun name notOld notNew also =>
      play_elsewhere made spared also notOld notNew ends⟩

theorem completes_exactly_with_reply :
    ∃ record heir,
      ((Sample.order.start Sample.coordinator).play (Sample.turns (.ok (some Sample.alive)))).outcome? =
        some (.completed record) ∧
      ((Sample.order.start Sample.coordinator).play (Sample.turns (.ok (some Sample.alive)))).agents.get? "elder" =
        none ∧
      ((Sample.order.start Sample.coordinator).play (Sample.turns (.ok (some Sample.alive)))).agents.get? "heir" =
        some heir ∧
      Swap.Takeover Sample.order.changes "swap" "elder" "heir" Sample.worker heir ∧
      heir.agentType = "watcher" ∧ heir.state.memory = [("mood", .str "steady")] ∧
      heir.state.configuration.get? "mode" = some (.str "night") ∧
      heir.state.configuration.get? "zone" = some (.str "north") ∧ heir.state.configuration.get? "type" = none := by
  obtain ⟨record, ended⟩ : ∃ record,
      ((Sample.order.start Sample.coordinator).play (Sample.turns (.ok (some Sample.alive)))).outcome? =
        some (.completed record) := ⟨_, rfl⟩
  obtain ⟨_, _, result⟩ := completes_exactly Sample.made (Sample.spared (.ok (some Sample.alive)))
  obtain ⟨old, heir, found, gone, there, takeover, _⟩ := result record ended
  cases found
  exact ⟨record, heir, ended, gone, there, takeover, takeover.agentType, takeover.memory,
    takeover.configuration "mode", takeover.configuration "zone", takeover.configuration "type"⟩

end Call
end Handover
