import Handover.Proofs.Registry
import Handover.Proofs.Swap.Course

/-!
# What the two names stand for during a swap

As long as nobody else writes the entries of the old and the new agent, the phase of a swap says what they
are: `Stands`. The entries before the swap are `s.old` and `before`.
-/

namespace Handover

/-- How far the entries of the two names are changed on the way to success. -/
inductive Standing where
  | untouched
  | paused
  | enrolled
  | handed
  | removed
  deriving DecidableEq

def Standing.isRegistered : Standing → Bool
  | .untouched | .paused => false
  | .enrolled | .handed | .removed => true

def SwapPhase.standing? : SwapPhase → Option Standing
  | .opening | .entering .capture | .working .capture | .leaving .capture => some .untouched
  | .entering .pause | .working .pause => some .untouched
  | .telling | .leaving .pause | .entering .register | .working .register | .enrolling => some .paused
  | .leaving .register | .entering .verify | .asking => some .enrolled
  | .leaving .verify | .entering .transfer | .working .transfer => some .enrolled
  | .activating | .leaving .transfer | .entering .finalize | .working .finalize => some .handed
  | .leaving .finalize => some .removed
  | .working .verify | .undoing | .reviving | .resuming | .closing | .finished => none

namespace Swap

def pausedOld (s : Swap) : Registration := { s.old with status := .paused }

def resumedOld (s : Swap) : Registration := { s.old with status := .active }

def capturedState (s : Swap) (captured : Instant) : AgentState :=
  s.old.state.recordHistory (captureEntry s.session.id s.session.newName captured)

def heir (s : Swap) (enrolled captured transferred : Instant) : Registration :=
  { successor s.old s.session.newName s.changes enrolled with
    state := handed (s.capturedState captured) s.changes s.session.id s.session.oldName transferred }

def OldEntry (s : Swap) (entry : Option Registration) : Standing → Prop
  | .untouched => entry = some s.old
  | .paused | .enrolled | .handed => entry = some s.pausedOld
  | .removed => entry = none

def NewEntry (before : Option Registration) (s : Swap) (entry : Option Registration) : Standing → Prop
  | .untouched | .paused => entry = before
  | .enrolled => ∃ enrolled, entry = some (successor s.old s.session.newName s.changes enrolled)
  | .handed | .removed => ∃ enrolled captured transferred, entry = some (s.heir enrolled captured transferred)

/-- The two names differ, and the old agent is found under its own. -/
structure Sensible (s : Swap) : Prop where
  named : s.old.name = s.session.oldName
  given : s.session.newName ≠ ""
  differ : s.session.newName ≠ s.session.oldName

/-- The entries of the two names as a standing has them. -/
structure StandsAt (before : Option Registration) (k : Standing) (s : Swap) (agents : Table Registration) : Prop where
  old : s.OldEntry (agents.get? s.session.oldName) k
  new : s.NewEntry before (agents.get? s.session.newName) k
  registered : s.newRegistered = k.isRegistered
  displaced : k.isRegistered = true ∨ s.phase = .enrolling → s.displaced = before

inductive Stands (before : Option Registration) (s : Swap) (agents : Table Registration) : Prop where
  | ahead {k : Standing} (standing : s.phase.standing? = some k) (at' : StandsAt before k s agents)
  | undoing (phase : s.phase = .undoing) (old : agents.get? s.session.oldName = some s.pausedOld)
      (displaced : s.newRegistered = true → s.displaced = before)
      (new : s.newRegistered = false → agents.get? s.session.newName = before)
  | reviving (phase : s.phase = .reviving) (old : agents.get? s.session.oldName = some s.pausedOld)
      (new : agents.get? s.session.newName = before)
  | back (phase : s.phase = .resuming ∨ s.phase = .closing ∨ s.phase = .finished) (failed : s.error.isSome = true)
      (old : agents.get? s.session.oldName = some (if s.oldPaused then s.resumedOld else s.old))
      (new : agents.get? s.session.newName = before)
  | done (phase : s.phase = .closing ∨ s.phase = .finished) (error : s.error = none)
      (at' : StandsAt before .removed s agents)

def SnapshotFits (s : Swap) : Prop :=
  ∀ snapshot, s.session.snapshot = some snapshot → ∃ captured, snapshot = s.capturedState captured

variable {s s' : Swap} {c c' : Coordinator} {around : Surroundings} {heard : Except Error (Option Message)}
  {before : Option Registration} {agents : Table Registration} {k : Standing} {e : Error}

theorem Stands.stood (stands : Stands before s agents) (standing : s.phase.standing? = some k) :
    StandsAt before k s agents := by
  cases stands with
  | ahead same at' =>
    rw [same] at standing
    cases standing
    exact at'
  | undoing phase => simp [phase, SwapPhase.standing?] at standing
  | reviving phase => simp [phase, SwapPhase.standing?] at standing
  | back phase => rcases phase with phase | phase | phase <;> simp [phase, SwapPhase.standing?] at standing
  | done phase => rcases phase with phase | phase <;> simp [phase, SwapPhase.standing?] at standing

theorem StandsAt.carry (at' : StandsAt before k s agents) (terms : s'.terms = s.terms)
    (registered : s'.newRegistered = s.newRegistered) (displaced : s'.displaced = s.displaced)
    (phase : s'.phase = .enrolling → s.phase = .enrolling) : StandsAt before k s' agents := by
  simp only [Swap.terms, Session.heading, Prod.mk.injEq] at terms
  obtain ⟨_, old, changes, id, oldName, newName, _⟩ := terms
  refine ⟨?_, ?_, registered.trans at'.registered, ?_⟩
  · have entry := at'.old
    cases k <;> simpa [OldEntry, pausedOld, old, oldName] using entry
  · have entry := at'.new
    cases k <;> simpa [NewEntry, heir, capturedState, old, changes, id, oldName, newName] using entry
  · intro known
    exact displaced.trans (at'.displaced (known.imp_right phase))

theorem same_stands (stands : Stands before s agents) (standing : s.phase.standing? = some k)
    (same : s'.phase.standing? = some k) (terms : s'.terms = s.terms)
    (registered : s'.newRegistered = s.newRegistered) (displaced : s'.displaced = s.displaced)
    (phase : s'.phase = .enrolling → s.phase = .enrolling) : Stands before s' agents :=
  .ahead same ((stands.stood standing).carry terms registered displaced phase)

theorem failWith_stands (at' : StandsAt before k s agents) (paused : s.oldPaused = (k != .untouched))
    (there : k ≠ .removed) : Stands before (s.failWith e) agents := by
  have old := at'.old
  have new := at'.new
  have registered := at'.registered
  have displaced := at'.displaced
  cases k with
  | untouched =>
    have same : agents.get? s.session.oldName = some s.old := old
    exact .back (.inr (.inl (by simp [failWith, paused]))) rfl (by simp [failWith, paused, same]) new
  | removed => exact absurd rfl there
  | paused =>
    refine .undoing (by simp [failWith, paused]) old ?_ fun _ => new
    intro was
    simp [failWith, registered, Standing.isRegistered] at was
  | enrolled | handed =>
    refine .undoing (by simp [failWith, paused]) old (fun _ => displaced (.inl rfl)) ?_
    intro not
    simp [failWith, registered, Standing.isRegistered] at not

/-- What a swap that was begun keeps, as long as nobody else writes the entries of its two names. -/
structure InOrder (before : Option Registration) (s : Swap) (agents : Table Registration) : Prop where
  course : OnCourse s
  sensible : Sensible s
  named : ∀ b, before = some b → b.name = s.session.newName
  fits : SnapshotFits s
  stands : Stands before s agents

theorem oldName_eq (sensible : Sensible s) : s.oldName = s.session.oldName := sensible.named

theorem paused_stands (order : InOrder before s c.registry.agents) (phase : s.phase = .working .pause)
    {a : Registration} {registry : Registry} (done : c.registry.setStatus s.oldName .paused = .ok (a, registry)) :
    Stands before { s with phase := .telling } registry.agents := by
  have stood := order.stands.stood (k := .untouched) (by rw [phase]; rfl)
  obtain ⟨found, there, _, changed⟩ := Registry.modify_ok done
  rw [oldName_eq order.sensible] at there changed
  obtain rfl : found = s.old := Option.some.inj (there.symm.trans stood.old)
  refine .ahead (k := .paused) rfl ⟨?_, ?_, stood.registered, ?_⟩
  · simp [OldEntry, changed, Table.get?_insert_self, pausedOld]
  · simpa [NewEntry, changed, Table.get?_insert_of_ne order.sensible.differ] using stood.new
  · simp [Standing.isRegistered]

theorem enrolled_stands (order : InOrder before s c.registry.agents) (phase : s.phase = .enrolling) {now : Instant}
    {a : Registration × Option Registration} {registry : Registry}
    (done : c.registry.register (successor s.old s.newName s.changes now) now = .ok (a, registry)) :
    Stands before { s with newRegistered := true, phase := .leaving .register } registry.agents := by
  have stood := order.stands.stood (k := .paused) (by rw [phase]; rfl)
  have given : (successor s.old s.newName s.changes now).name ≠ "" := order.sensible.given
  rw [Registry.register_eq _ _ _ given] at done
  cases done
  refine .ahead (k := .enrolled) rfl ⟨?_, ?_, rfl, fun _ => stood.displaced (.inr phase)⟩
  · have kept := Table.get?_insert_of_ne (Ne.symm order.sensible.differ)
      (successor s.old s.newName s.changes now) c.registry.agents
    exact kept.trans stood.old
  · exact ⟨now, Table.get?_insert_self s.newName (successor s.old s.newName s.changes now) c.registry.agents⟩

theorem handed_stands (order : InOrder before s c.registry.agents) (phase : s.phase = .working .transfer)
    {snapshot : AgentState} {now : Instant} {a : Registration} {registry : Registry}
    (found : s.session.snapshot = some snapshot)
    (done : c.registry.updateState s.newName
      (handed snapshot s.changes s.session.id s.session.oldName now) = .ok (a, registry)) :
    Stands before { s with phase := .activating } registry.agents := by
  have stood := order.stands.stood (k := .enrolled) (by rw [phase]; rfl)
  obtain ⟨enrolled, entry⟩ := stood.new
  obtain ⟨captured, rfl⟩ := order.fits snapshot found
  obtain ⟨b, there, _, changed⟩ := Registry.modify_ok done
  obtain rfl : b = _ := Option.some.inj (there.symm.trans entry)
  refine .ahead (k := .handed) rfl ⟨?_, ?_, stood.registered, fun _ => stood.displaced (.inl rfl)⟩
  · rw [changed]
    exact (Table.get?_insert_of_ne (Ne.symm order.sensible.differ) _ _).trans stood.old
  · rw [changed]
    exact ⟨enrolled, captured, now, Table.get?_insert_self _ _ _⟩

theorem activated_stands (order : InOrder before s c.registry.agents) (phase : s.phase = .activating)
    {a : Registration} {registry : Registry} (done : c.registry.setStatus s.newName .active = .ok (a, registry)) :
    Stands before { s with phase := .leaving .transfer } registry.agents := by
  have stood := order.stands.stood (k := .handed) (by rw [phase]; rfl)
  obtain ⟨enrolled, captured, transferred, entry⟩ := stood.new
  obtain ⟨b, there, _, changed⟩ := Registry.modify_ok done
  obtain rfl : b = _ := Option.some.inj (there.symm.trans entry)
  refine .ahead (k := .handed) rfl ⟨?_, ?_, stood.registered, fun _ => stood.displaced (.inl rfl)⟩
  · rw [changed]
    exact (Table.get?_insert_of_ne (Ne.symm order.sensible.differ) _ _).trans stood.old
  · rw [changed]
    exact ⟨enrolled, captured, transferred, Table.get?_insert_self _ _ _⟩

theorem removed_stands (order : InOrder before s c.registry.agents) (phase : s.phase = .working .finalize) :
    Stands before { s with phase := .leaving .finalize } (c.registry.unregister s.oldName).2.agents := by
  have stood := order.stands.stood (k := .handed) (by rw [phase]; rfl)
  obtain ⟨enrolled, captured, transferred, entry⟩ := stood.new
  rw [oldName_eq order.sensible, Registry.unregister_agents]
  refine .ahead (k := .removed) rfl ⟨Table.get?_erase_self _ _, ?_, stood.registered, fun _ => stood.displaced (.inl rfl)⟩
  exact ⟨enrolled, captured, transferred, (Table.get?_erase_of_ne order.sensible.differ _).trans entry⟩

theorem undoing_entries (stands : Stands before s agents) (phase : s.phase = .undoing) :
    agents.get? s.session.oldName = some s.pausedOld ∧ (s.newRegistered = true → s.displaced = before) ∧
      (s.newRegistered = false → agents.get? s.session.newName = before) := by
  cases stands with
  | ahead standing => simp [phase, SwapPhase.standing?] at standing
  | undoing _ old displaced new => exact ⟨old, displaced, new⟩
  | reviving other => simp [phase] at other
  | back other => simp [phase] at other
  | done other => simp [phase] at other

theorem undo_agents (order : InOrder before s c.registry.agents) (phase : s.phase = .undoing) :
    (s.newRegistered = false ∧ (s.undo c).registry.agents = c.registry.agents) ∨
      (before = none ∧ (s.undo c).registry.agents = c.registry.agents.erase s.session.newName) ∨
      ∃ b, before = some b ∧ (s.undo c).registry.agents = c.registry.agents.insert s.session.newName b := by
  obtain ⟨_, displaced, _⟩ := undoing_entries order.stands phase
  cases registered : s.newRegistered with
  | false => exact .inl ⟨rfl, by simp [undo, registered]⟩
  | true =>
    have was := displaced registered
    cases earlier : s.displaced with
    | none => exact .inr (.inl ⟨was.symm.trans earlier, by simp [undo, registered, earlier, newName]⟩)
    | some b =>
      have name := order.named b (was.symm.trans earlier)
      refine .inr (.inr ⟨b, was.symm.trans earlier, ?_⟩)
      simp [undo, registered, earlier, Registry.restore_eq, Registry.store_agents, name, order.sensible.given]

theorem undone_stands {since : Moment} (order : InOrder before s c.registry.agents)
    (phase : s.phase = .undoing) :
    Stands before { s with backSince := since, phase := .reviving } (s.undo c).registry.agents := by
  obtain ⟨old, _, new⟩ := undoing_entries order.stands phase
  have differ := Ne.symm order.sensible.differ
  rcases undo_agents order phase with ⟨registered, same⟩ | ⟨rfl, erased⟩ | ⟨b, rfl, restored⟩
  · rw [same]
    exact .reviving rfl old (new registered)
  · rw [erased]
    exact .reviving rfl ((Table.get?_erase_of_ne differ _).trans old) (Table.get?_erase_self _ _)
  · rw [restored]
    exact .reviving rfl ((Table.get?_insert_of_ne differ _ _).trans old) (Table.get?_insert_self _ _ _)

theorem reviving_entries (stands : Stands before s agents) (phase : s.phase = .reviving) :
    agents.get? s.session.oldName = some s.pausedOld ∧ agents.get? s.session.newName = before := by
  cases stands with
  | ahead standing => simp [phase, SwapPhase.standing?] at standing
  | undoing other => simp [phase] at other
  | reviving _ old new => exact ⟨old, new⟩
  | back other => simp [phase] at other
  | done other => simp [phase] at other

theorem revived_stands (order : InOrder before s c.registry.agents) (phase : s.phase = .reviving)
    {a : Registration} {registry : Registry}
    (done : c.registry.setStatus s.session.oldName .active = .ok (a, registry)) :
    Stands before { s with phase := .resuming } registry.agents := by
  obtain ⟨old, new⟩ := reviving_entries order.stands phase
  obtain ⟨paused, error⟩ := order.course.turnedBack (.inr (.inl phase))
  obtain ⟨found, there, _, changed⟩ := Registry.modify_ok done
  obtain rfl : found = s.pausedOld := Option.some.inj (there.symm.trans old)
  refine .back (.inl rfl) error ?_ ?_
  · simp [changed, Table.get?_insert_self, paused, pausedOld, resumedOld]
  · simpa [changed, Table.get?_insert_of_ne order.sensible.differ] using new

theorem closing_stands (stands : Stands before s agents) (phase : s.phase = .resuming ∨ s.phase = .closing)
    (session : Session) (heading : session.heading = s.session.heading) (next : SwapPhase)
    (onward : next = .closing ∨ next = .finished) :
    Stands before { s with session, phase := next } agents := by
  simp only [Session.heading, Prod.mk.injEq] at heading
  obtain ⟨id, oldName, newName, _⟩ := heading
  cases stands with
  | ahead standing => rcases phase with phase | phase <;> simp [phase, SwapPhase.standing?] at standing
  | undoing other => simp [other] at phase
  | reviving other => simp [other] at phase
  | back _ failed old new =>
    refine .back (.inr onward) failed ?_ ?_
    · simp only [oldName]
      exact old
    · simp only [newName]
      exact new
  | done _ error at' =>
    refine .done onward error (at'.carry ?_ rfl rfl ?_)
    · simp [terms, Session.heading, *]
    · rcases onward with rfl | rfl <;> simp

/-- Only two things stop a swap whose entries nobody else writes: that the caller gave up, and the ping. -/
theorem stops_reason (order : InOrder before s c.registry.agents) (why : Stops s c around heard e) :
    (s.heedsCaller = true ∧ s.context.check around.tokens around.moment = .error e) ∨
      (s.phase = .asking ∧ s.verdict heard = .error e) := by
  cases why with
  | gaveUp heeds gone => exact .inl ⟨heeds, gone⟩
  | barred phase status barred => exact (barred_absurd order.course phase status barred).elim
  | unpaused phase missing =>
    have stood := order.stands.stood (k := .untouched) (by rw [phase]; rfl)
    rw [oldName_eq order.sensible, Registry.setStatus, Registry.modify_found _ _ stood.old] at missing
    cases missing
  | unenrolled phase refused =>
    have given : (successor s.old s.newName s.changes around.time).name ≠ "" := order.sensible.given
    rw [Registry.register_eq _ _ _ given] at refused
    cases refused
  | unverified phase verdict => exact .inr ⟨phase, verdict⟩
  | empty phase none =>
    have reached := order.course.reached (m := .within .transfer) (by rw [phase]; rfl)
    have captured := reached.captured
    rw [none] at captured
    cases captured
  | unhanded phase _ missing =>
    have stood := order.stands.stood (k := .enrolled) (by rw [phase]; rfl)
    obtain ⟨enrolled, entry⟩ := stood.new
    rw [newName, Registry.updateState, Registry.modify_found _ _ entry] at missing
    cases missing
  | inactive phase missing =>
    have stood := order.stands.stood (k := .handed) (by rw [phase]; rfl)
    obtain ⟨enrolled, captured, transferred, entry⟩ := stood.new
    rw [newName, Registry.setStatus, Registry.modify_found _ _ entry] at missing
    cases missing

theorem stops_stands (order : InOrder before s c.registry.agents) (why : Stops s c around heard e) :
    Stands before (s.failWith e) c.registry.agents := by
  rcases stops_reason order why with ⟨heeds, _⟩ | ⟨phase, _⟩
  · unfold heedsCaller at heeds
    split at heeds
    · cases heeds
    · rename_i stage notCapture phase
      have reached := order.course.reached (m := .entering stage) (by rw [phase]; rfl)
      cases stage with
      | capture => exact absurd rfl notCapture
      | pause =>
        exact failWith_stands (order.stands.stood (k := .untouched) (by rw [phase]; rfl)) reached.paused nofun
      | register =>
        exact failWith_stands (order.stands.stood (k := .paused) (by rw [phase]; rfl)) reached.paused nofun
      | verify | transfer =>
        exact failWith_stands (order.stands.stood (k := .enrolled) (by rw [phase]; rfl)) reached.paused nofun
      | finalize =>
        exact failWith_stands (order.stands.stood (k := .handed) (by rw [phase]; rfl)) reached.paused nofun
    · rename_i phase
      have reached := order.course.reached (m := .leaving .capture) (by rw [phase]; rfl)
      exact failWith_stands (order.stands.stood (k := .untouched) (by rw [phase]; rfl)) reached.paused nofun
    · cases heeds
  · have reached := order.course.reached (m := .within .verify) (by rw [phase]; rfl)
    exact failWith_stands (order.stands.stood (k := .enrolled) (by rw [phase]; rfl)) reached.paused nofun

theorem vanished_absurd (order : InOrder before s c.registry.agents) (phase : s.phase = .working .capture)
    (missing : c.registry.agents.get? s.oldName = none) : False := by
  have stood := order.stands.stood (k := .untouched) (by rw [phase]; rfl)
  have there : c.registry.agents.get? s.oldName = some s.old := by
    rw [oldName_eq order.sensible]
    exact stood.old
  rw [missing] at there
  cases there

theorem unrevived_absurd (order : InOrder before s c.registry.agents) (phase : s.phase = .reviving)
    (missing : c.registry.setStatus s.session.oldName .active = .error e) : False := by
  obtain ⟨old, _⟩ := reviving_entries order.stands phase
  rw [Registry.setStatus, Registry.modify_found _ _ old] at missing
  cases missing

theorem left_stands {stage next : SwapStage} (stands : Stands before s agents) (phase : s.phase = .leaving stage)
    (onward : stage.next? = some next) (now : Instant) :
    Stands before { s with session := s.stepDone now, phase := .entering next } agents := by
  cases stage with
  | finalize => cases onward
  | capture =>
    cases onward
    exact same_stands stands (k := .untouched) (by rw [phase]; rfl) rfl rfl rfl rfl nofun
  | pause =>
    cases onward
    exact same_stands stands (k := .paused) (by rw [phase]; rfl) rfl rfl rfl rfl nofun
  | register | verify =>
    cases onward
    exact same_stands stands (k := .enrolled) (by rw [phase]; rfl) rfl rfl rfl rfl nofun
  | transfer =>
    cases onward
    exact same_stands stands (k := .handed) (by rw [phase]; rfl) rfl rfl rfl rfl nofun

theorem entered_stands {stage : SwapStage} (stands : Stands before s agents) (phase : s.phase = .entering stage)
    (now : Instant) :
    Stands before { s with
      session := s.arrive stage now
      phase := if stage = .verify then .asking else .working stage } agents := by
  cases stage with
  | capture | pause => exact same_stands stands (k := .untouched) (by rw [phase]; rfl) rfl rfl rfl rfl nofun
  | register => exact same_stands stands (k := .paused) (by rw [phase]; rfl) rfl rfl rfl rfl nofun
  | verify | transfer => exact same_stands stands (k := .enrolled) (by rw [phase]; rfl) rfl rfl rfl rfl nofun
  | finalize => exact same_stands stands (k := .handed) (by rw [phase]; rfl) rfl rfl rfl rfl nofun

theorem moves_stands (order : InOrder before s c.registry.agents) (moves : Moves s c around heard s' c') :
    Stands before s' c'.registry.agents := by
  have stands := order.stands
  cases moves with
  | opened phase => exact same_stands stands (k := .untouched) (by rw [phase]; rfl) rfl rfl rfl rfl nofun
  | entered phase => exact entered_stands stands phase _
  | captured phase => exact same_stands stands (k := .untouched) (by rw [phase]; rfl) rfl rfl rfl rfl nofun
  | vanished phase missing => exact (vanished_absurd order phase missing).elim
  | paused phase done => exact paused_stands order phase done
  | told phase => exact same_stands stands (k := .paused) (by rw [phase]; rfl) rfl rfl rfl rfl nofun
  | looked phase =>
    have stood := stands.stood (k := .paused) (by rw [phase]; rfl)
    exact .ahead (k := .paused) rfl ⟨stood.old, stood.new, stood.registered, fun _ => stood.new⟩
  | enrolled phase done => exact enrolled_stands order phase done
  | verified phase => exact same_stands stands (k := .enrolled) (by rw [phase]; rfl) rfl rfl rfl rfl nofun
  | handed phase found done => exact handed_stands order phase found done
  | activated phase done => exact activated_stands order phase done
  | removed phase => exact removed_stands order phase
  | left phase _ onward => exact left_stands stands phase onward _
  | won phase done =>
    have heading := (Session.complete_heading done).trans (Session.completeStep_heading _ _ _)
    have stood := stands.stood (k := .removed) (by rw [phase]; rfl)
    have error := (order.course.reached (m := .leaving .finalize) (by rw [phase]; rfl)).error
    exact .done (.inl rfl) error (stood.carry (by simp [terms, heading]) rfl rfl nofun)
  | unfinished phase barred => exact (unfinished_absurd order.course phase barred).elim
  | stopped why => exact stops_stands order why
  | undone phase => exact undone_stands order phase
  | revived phase done => exact revived_stands order phase done
  | unrevived phase missing => exact (unrevived_absurd order phase missing).elim
  | resumed phase => exact closing_stands stands (.inl phase) s.session rfl .closing (.inl rfl)
  | closed phase => exact closing_stands stands (.inr phase) _ (closed_heading s _) .finished (.inr rfl)
  | rested => exact stands

theorem moves_fits (order : InOrder before s c.registry.agents) (moves : Moves s c around heard s' c') :
    SnapshotFits s' := by
  have fits := order.fits
  cases moves with
  | captured phase found =>
    have stood := order.stands.stood (k := .untouched) (by rw [phase]; rfl)
    rw [oldName_eq order.sensible] at found
    obtain rfl := Option.some.inj (found.symm.trans stood.old)
    intro snapshot same
    cases same
    exact ⟨around.time, rfl⟩
  | vanished phase missing => exact (vanished_absurd order phase missing).elim
  | won phase done =>
    obtain ⟨_, rfl⟩ := Session.complete_ok_iff.mp done
    exact fits
  | closed phase =>
    intro snapshot same
    obtain ⟨captured, fits⟩ := fits snapshot ((closed_snapshot s around.time).symm.trans same)
    have heading := closed_heading s around.time
    simp only [Session.heading, Prod.mk.injEq] at heading
    exact ⟨captured, by simpa [capturedState, heading] using fits⟩
  | _ => exact fits

theorem moves_sensible (sensible : Sensible s) (moves : Moves s c around heard s' c') : Sensible s' := by
  have terms := moves_terms moves
  simp only [Swap.terms, Session.heading, Prod.mk.injEq] at terms
  obtain ⟨_, old, _, _, oldName, newName, _⟩ := terms
  exact ⟨by rw [old, oldName, sensible.named], by rw [newName]; exact sensible.given,
    by rw [oldName, newName]; exact sensible.differ⟩

theorem moves_inOrder (order : InOrder before s c.registry.agents) (moves : Moves s c around heard s' c') :
    InOrder before s' c'.registry.agents := by
  have terms := moves_terms moves
  have newName : s'.session.newName = s.session.newName := congrArg (·.2.2.2.2.2.1) terms
  refine ⟨moves_onCourse order.course moves, moves_sensible order.sensible moves, ?_,
    moves_fits order moves, moves_stands order moves⟩
  intro b was
  rw [newName]
  exact order.named b was

theorem undo_elsewhere {name : String} (order : InOrder before s c.registry.agents) (phase : s.phase = .undoing)
    (other : name ≠ s.session.newName) :
    (s.undo c).registry.agents.get? name = c.registry.agents.get? name := by
  rcases undo_agents order phase with ⟨_, same⟩ | ⟨_, erased⟩ | ⟨b, _, restored⟩
  · rw [same]
  · rw [erased]
    exact Table.get?_erase_of_ne other _
  · rw [restored]
    exact Table.get?_insert_of_ne other _ _

theorem moves_elsewhere {name : String} (order : InOrder before s c.registry.agents)
    (moves : Moves s c around heard s' c') (notOld : name ≠ s.session.oldName) (notNew : name ≠ s.session.newName) :
    c'.registry.agents.get? name = c.registry.agents.get? name := by
  have old := oldName_eq order.sensible
  cases moves with
  | paused phase done =>
    obtain ⟨a, _, _, changed⟩ := Registry.modify_ok done
    rw [changed, old, Table.get?_insert_of_ne notOld]
  | enrolled phase done =>
    have given : (successor s.old s.newName s.changes around.time).name ≠ "" := order.sensible.given
    rw [Registry.register_eq _ _ _ given] at done
    cases done
    exact Table.get?_insert_of_ne notNew _ _
  | handed phase _ done =>
    obtain ⟨a, _, _, changed⟩ := Registry.modify_ok done
    rw [changed]
    exact Table.get?_insert_of_ne notNew _ _
  | activated phase done =>
    obtain ⟨a, _, _, changed⟩ := Registry.modify_ok done
    rw [changed]
    exact Table.get?_insert_of_ne notNew _ _
  | removed phase =>
    rw [Registry.unregister_agents, old]
    exact Table.get?_erase_of_ne notOld _
  | undone phase => exact undo_elsewhere order phase notNew
  | revived phase done =>
    obtain ⟨a, _, _, changed⟩ := Registry.modify_ok done
    rw [changed]
    exact Table.get?_insert_of_ne notOld _ _
  | _ => rfl

theorem Stands.elsewhere (stands : Stands before s agents) (others : Table Registration)
    (old : others.get? s.session.oldName = agents.get? s.session.oldName)
    (new : others.get? s.session.newName = agents.get? s.session.newName) : Stands before s others := by
  cases stands with
  | ahead standing at' =>
    exact .ahead standing ⟨old ▸ at'.old, new ▸ at'.new, at'.registered, at'.displaced⟩
  | undoing phase was displaced back => exact .undoing phase (old.trans was) displaced fun not => new.trans (back not)
  | reviving phase was back => exact .reviving phase (old.trans was) (new.trans back)
  | back phase failed was back => exact .back phase failed (old.trans was) (new.trans back)
  | done phase error at' => exact .done phase error ⟨old ▸ at'.old, new ▸ at'.new, at'.registered, at'.displaced⟩

/-- What the two names show when a swap is over: what they did before, or the successor alone. -/
theorem over_entries (stands : Stands before s agents) (atEnd : s.isOver = true) :
    (s.error.isSome = true → agents.get? s.session.oldName = some (if s.oldPaused then s.resumedOld else s.old) ∧
      agents.get? s.session.newName = before) ∧
    (s.error = none → StandsAt before .removed s agents) := by
  have phase : s.phase = .finished := by simpa [isOver] using atEnd
  cases stands with
  | ahead standing => simp [phase, SwapPhase.standing?] at standing
  | undoing other => simp [phase] at other
  | reviving other => simp [phase] at other
  | back _ failed old new =>
    refine ⟨fun _ => ⟨old, new⟩, fun sound => ?_⟩
    simp [sound] at failed
  | done _ sound at' =>
    refine ⟨fun failed => ?_, fun _ => at'⟩
    simp [sound] at failed

theorem begun_inOrder {r : Registry} {ctx : Context} {old new id : String} {changes : Table Json} {now : Instant}
    (made : r.Made) (begun : begin? r ctx old new changes id now = .ok s) :
    InOrder (r.agents.get? new) s r.agents := by
  have course := begun_onCourse begun
  have named := Registry.made_named made
  obtain ⟨given, differ, a, found, rfl⟩ := begin?_cases begun
  have sensible : Sensible { context := ctx, old := a, changes, session := .new id old new now } :=
    ⟨(named old a found).1, given, differ⟩
  refine ⟨course, sensible, fun b there => (named new b there).1, ?_, ?_⟩
  · intro snapshot captured
    cases captured
  · exact .ahead (k := .untouched) rfl ⟨found, rfl, rfl, nofun⟩

end Swap
end Handover
