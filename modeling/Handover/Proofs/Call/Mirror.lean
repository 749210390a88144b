import Handover.Proofs.Crowd
import Handover.Proofs.Recovery
import Handover.Proofs.Swap.Burden

/-!
# What a call leaves on the board

The changes that a call makes hand the old agent's burden on: to the old agent itself as long as it is there, and to
the new one from the moment that it has the state. So wherever the writer stops, a fresh coordinator finds one of the
two with that burden.
-/

namespace Handover

namespace BoardWrite
variable {P : Registration → Prop} {first next last : String} {xs ys : List BoardWrite} {x : BoardWrite}

theorem Trail.append (trail : Trail P first xs next) (onward : Trail P next ys last) :
    Trail P first (xs ++ ys) last := by
  induction trail with
  | done => exact onward
  | spared other _ ih => exact .spared other (ih onward)
  | put has _ ih => exact .put has (ih onward)

theorem trail_spared (spared : ∀ x ∈ xs, x.about? ≠ some first) : Trail P first xs first := by
  induction xs with
  | nil => exact .done
  | cons x rest ih =>
    exact .spared (spared x (.head _)) (ih fun y there => spared y (.tail _ there))

theorem trail_idle (idle : ∀ x ∈ xs, x.about? = none) : Trail P first xs first := by
  refine trail_spared fun x there => ?_
  rw [idle x there]
  exact nofun

end BoardWrite

open BoardWrite

/-- The agent is one of the two of the order, and has this burden. -/
def Order.Keeper (o : Order) (burden : Burden) (a : Registration) : Prop :=
  (a.name = o.oldName ∨ a.name = o.newName) ∧ a.state.burden = burden

/-- The changes so far hand the burden on to the old agent, while it is there, and to the new one, once it has it. -/
structure Order.Traced (o : Order) (burden : Burden) (waiting : List BoardWrite) (s : Swap) (c : Coordinator) :
    Prop where
  named : Registry.Named c.registry.agents
  runs : o.Runs s
  old : ∀ a, c.registry.agents.get? o.oldName = some a → a.state.burden = burden
  laden : s.Laden burden c.registry.agents
  held : (∃ a, c.registry.agents.get? o.oldName = some a) ∨ s.HasRemoved
  kept : (∃ a, c.registry.agents.get? o.oldName = some a) →
    Trail (o.Keeper burden) o.oldName (waiting ++ c.registry.writes) o.oldName
  taken : s.HasHanded → Trail (o.Keeper burden) o.oldName (waiting ++ c.registry.writes) o.newName
  given : ∀ a, .putAgent a ∈ waiting ++ c.registry.writes → a.name ≠ ""

namespace Swap
variable {o : Order} {s s' : Swap} {agents : Table Registration} {x : BoardWrite} {burden : Burden}
  {waiting : List BoardWrite} {r r' : Registry} {c c' : Coordinator} {around : Surroundings}
  {heard : Except Error (Option Message)}

theorem edit_keeps_old (edit : Edit s s' agents x) (runs : o.Runs s)
    (old : ∀ a, agents.get? o.oldName = some a → a.state.burden = burden)
    (still : (x.change agents).get? o.oldName ≠ none) : Trail (o.Keeper burden) o.oldName [x] o.oldName := by
  have differ : o.newName ≠ o.oldName := by
    rw [← runs.newName, ← runs.oldName]
    exact runs.grounded.sensible.differ
  by_cases about : x.about? = some o.oldName
  · cases edit with
    | record => cases about
    | status own found =>
      have same := Option.some.inj about
      have carries := old _ (same ▸ found)
      rw [← same]
      exact .put ⟨.inl same, carries⟩ .done
    | enrolled => exact absurd (runs.newName.symm.trans (Option.some.inj about)) differ
    | handed _ own => exact absurd ((runs.newName.symm.trans own.symm).trans (Option.some.inj about)) differ
    | withdrawn => exact absurd (runs.newName.symm.trans (Option.some.inj about)) differ
    | restored _ there =>
      have own := runs.grounded.displaced _ there
      exact absurd ((runs.newName.symm.trans own.symm).trans (Option.some.inj about)) differ
    | removed =>
      rw [← Option.some.inj about] at still
      exact absurd (Table.get?_erase_self _ _) still
  · exact .spared about .done

theorem edit_keeps_new (edit : Edit s s' agents x) (runs : o.Runs s) (laden : s.Laden burden agents)
    (before : s.HasHanded) (after : s'.HasHanded) : Trail (o.Keeper burden) o.newName [x] o.newName := by
  obtain ⟨b, there, carries⟩ := laden.handed before
  by_cases about : x.about? = some o.newName
  · cases edit with
    | record => cases about
    | status own found =>
      have same := Option.some.inj about
      rw [same, ← runs.newName, there] at found
      cases found
      rw [← same]
      exact .put ⟨.inr same, carries⟩ .done
    | enrolled phase => exact absurd after (not_handed (.inl phase))
    | handed _ own _ captured =>
      have same := Option.some.inj about
      have carries := laden.captured _ captured
      rw [← same]
      exact .put ⟨.inr same, carries⟩ .done
    | removed =>
      have same : s.session.newName = s.session.oldName := runs.newName.trans (Option.some.inj about).symm
      exact absurd same runs.grounded.sensible.differ
    | withdrawn phase | restored phase => exact absurd after (not_handed (.inr phase))
  · exact .spared about .done

theorem edits_given (edits : Edits s s' r r') (grounded : Grounded s) (named : Registry.Named r.agents)
    (given : ∀ a, .putAgent a ∈ waiting ++ r.writes → a.name ≠ "") :
    ∀ a, .putAgent a ∈ waiting ++ r'.writes → a.name ≠ "" := by
  cases edits with
  | none same =>
    rw [same]
    exact given
  | one edit notes =>
    intro a there
    rw [notes.writes, ← List.append_assoc, List.mem_append, List.mem_singleton] at there
    rcases there with earlier | rfl
    · exact given a earlier
    · exact (edit.named grounded named a.name a (Table.get?_insert_self _ _ _)).2

theorem edits_keep_old (edits : Edits s s' r r') (runs : o.Runs s)
    (old : ∀ a, r.agents.get? o.oldName = some a → a.state.burden = burden)
    (still : r'.agents.get? o.oldName ≠ none)
    (kept : Trail (o.Keeper burden) o.oldName (waiting ++ r.writes) o.oldName) :
    Trail (o.Keeper burden) o.oldName (waiting ++ r'.writes) o.oldName := by
  cases edits with
  | none same =>
    rw [same]
    exact kept
  | one edit notes =>
    rw [notes.writes, ← List.append_assoc]
    exact kept.append (edit_keeps_old edit runs old (notes.agents ▸ still))

theorem edits_keep_new (edits : Edits s s' r r') (runs : o.Runs s) (laden : s.Laden burden r.agents)
    (before : s.HasHanded) (after : s'.HasHanded)
    (taken : Trail (o.Keeper burden) o.oldName (waiting ++ r.writes) o.newName) :
    Trail (o.Keeper burden) o.oldName (waiting ++ r'.writes) o.newName := by
  cases edits with
  | none same =>
    rw [same]
    exact taken
  | one edit notes =>
    rw [notes.writes, ← List.append_assoc]
    exact taken.append (edit_keeps_new edit runs laden before after)

end Swap

namespace Order.Traced
variable {o : Order} {s s' : Swap} {burden : Burden} {waiting : List BoardWrite} {c c' : Coordinator}
  {around : Surroundings} {heard : Except Error (Option Message)}

/-- The old agent or the new one has the burden after the changes so far. -/
theorem trail (traced : o.Traced burden waiting s c) :
    ∃ holder, Trail (o.Keeper burden) o.oldName (waiting ++ c.registry.writes) holder := by
  rcases traced.held with there | removed
  · exact ⟨_, traced.kept there⟩
  · exact ⟨_, traced.taken (.inr removed)⟩

theorem taken_next (traced : o.Traced burden waiting s c) (moves : Swap.Moves s c around heard s' c')
    (handed : s'.HasHanded) :
    Trail (o.Keeper burden) o.oldName (waiting ++ c'.registry.writes) o.newName := by
  have edits := Swap.moves_edits traced.named traced.runs.grounded moves
  rcases Swap.moves_handed traced.runs.course moves handed with before | ⟨snapshot, now, b, captured, done⟩
  · exact Swap.edits_keep_new edits traced.runs traced.laden before handed (traced.taken before)
  · -- The write of the handing over puts the new agent with the burden, so it goes behind whoever had it before.
    obtain ⟨a, _, own, _, notes⟩ := Registry.modify_notes traced.named done fun _ => rfl
    obtain ⟨holder, trail⟩ := traced.trail
    have named : a.name = o.newName := own.trans traced.runs.newName
    have carries := traced.laden.captured snapshot captured
    rw [notes.writes, ← List.append_assoc, ← named]
    exact trail.append (.put ⟨.inr named, carries⟩ .done)

theorem next (traced : o.Traced burden waiting s c) (moves : Swap.Moves s c around heard s' c') :
    o.Traced burden waiting s' c' := by
  have runs := traced.runs
  have grounded := runs.grounded
  have edits := Swap.moves_edits traced.named grounded moves
  have same := runs.oldName
  have old : ∀ a, c.registry.agents.get? s.session.oldName = some a → a.state.burden = burden := same ▸ traced.old
  refine ⟨edits.named grounded traced.named, Crowd.moves_runs traced.named runs moves, ?_, ?_, ?_, ?_, ?_, ?_⟩
  · intro a there
    exact edits.old_burden grounded old (same ▸ there)
  · exact Swap.moves_laden traced.named grounded runs.course traced.laden old moves
  · rcases traced.held with ⟨a, there⟩ | removed
    · rcases edits.old_stays grounded (same ▸ there) with phase | still
      · exact .inr (.inl phase)
      · exact .inl (same ▸ still)
    · exact .inr (Swap.moves_removed runs.course removed moves)
  · rintro ⟨a, there⟩
    obtain ⟨b, was, _⟩ := edits.old_was grounded (same ▸ there)
    exact Swap.edits_keep_old edits runs traced.old (by simp [there]) (traced.kept ⟨b, same ▸ was⟩)
  · exact traced.taken_next moves
  · exact Swap.edits_given edits grounded traced.named traced.given

theorem beside (traced : o.Traced burden waiting s c) (agents : c'.registry.agents = c.registry.agents)
    {more : List BoardWrite} (writes : c'.registry.writes = c.registry.writes ++ more)
    (idle : ∀ x ∈ more, x.about? = none) : o.Traced burden waiting s c' := by
  refine ⟨agents ▸ traced.named, traced.runs, agents ▸ traced.old, agents ▸ traced.laden, agents ▸ traced.held,
    ?_, ?_, ?_⟩
  · intro there
    rw [writes, ← List.append_assoc]
    exact (traced.kept (agents ▸ there)).append (trail_idle idle)
  · intro handed
    rw [writes, ← List.append_assoc]
    exact (traced.taken handed).append (trail_idle idle)
  · intro a there
    rw [writes, ← List.append_assoc, List.mem_append] at there
    rcases there with earlier | later
    · exact traced.given a earlier
    · cases idle _ later

end Order.Traced

namespace Sample

/-- The worker is registered, and all changes were handed to the writer. -/
def settled : Coordinator := { registry := { ({} : Registry).store worker with writes := [] } }

def board : Blackboard := {}

/-- What the writer left when it brought the worker to the board. -/
def store : Store :=
  board.written (board.written {} (Blackboard.agentKey "elder") worker.encode) Blackboard.indexKey
    (.ofStrings ["elder"])

def replied : List Turn := List.replicate 26 (.own { time := ⟨2, 0⟩ } (.ok (some alive)))

/-- The call on the settled coordinator, when it is over. -/
def completed : Call := (order.start settled).play replied

def bare : Registration := Swap.successor worker "heir" order.changes ⟨2, 0⟩

def heir : Registration :=
  { bare with
    state := Swap.handed (worker.state.recordHistory (Swap.captureEntry "swap" "heir" ⟨2, 0⟩)) order.changes "swap"
      "elder" ⟨2, 0⟩ }

theorem settled_made : settled.registry.Made :=
  .drained (.restore .empty (Registry.restore_eq {} worker (by decide)))

set_option maxRecDepth 4000 in
theorem worker_readsBack : worker.ReadsBack := (Decode.ofText_render rfl).trans rfl

set_option maxRecDepth 4000 in
theorem paused_readsBack : ({ worker with status := .paused } : Registration).ReadsBack :=
  (Decode.ofText_render rfl).trans rfl

set_option maxRecDepth 4000 in
theorem bare_readsBack : bare.ReadsBack := (Decode.ofText_render rfl).trans rfl

set_option maxRecDepth 4000 in
theorem heir_readsBack : heir.ReadsBack := (Decode.ofText_render rfl).trans rfl

theorem completed_readsBack : ∀ a, .putAgent a ∈ completed.coordinator.registry.writes → a.ReadsBack := by
  intro a there
  have listed : completed.coordinator.registry.writes.filterMap (fun | .putAgent a => some a | _ => none) =
      [{ worker with status := .paused }, bare, heir, heir] := rfl
  have entered : a ∈ [{ worker with status := .paused }, bare, heir, heir] := by
    rw [← listed]
    exact List.mem_filterMap.mpr ⟨_, there, rfl⟩
  simp only [List.mem_cons, List.not_mem_nil, or_false] at entered
  rcases entered with rfl | rfl | rfl | rfl
  · exact paused_readsBack
  · exact bare_readsBack
  · exact heir_readsBack
  · exact heir_readsBack

end Sample

namespace Call
variable {o : Order} {c fresh : Coordinator} {turns : List Turn} {call : Call} {waiting : List BoardWrite}
  {old : Registration} {w : BoardWriter} {s : Store}

/-- The changes that are still to be handed to the writer. -/
def writes (call : Call) : List BoardWrite := call.coordinator.registry.writes

/-- Others leave the agents alone, and what they have written is about none of them. -/
def Quiet (call : Call) : Turn → Prop
  | .own .. => True
  | .others c => c.registry.agents = call.agents ∧
      ∃ more, c.registry.writes = call.writes ++ more ∧ ∀ x ∈ more, x.about? = none

theorem refused_quiet (refused : call.swap = .error e) (quiet : call.Always Quiet turns) :
    ∃ more, (call.play turns).writes = call.writes ++ more ∧ ∀ x ∈ more, x.about? = none := by
  induction turns generalizing call with
  | nil => exact ⟨[], by simp⟩
  | cons t rest ih =>
    obtain ⟨later, writes, idle⟩ := ih (turn_refused refused t) quiet.2
    cases t with
    | own around heard =>
      have same : call.turn (.own around heard) = call := by simp [turn, refused]
      rw [same] at writes
      rw [play_cons, same]
      exact ⟨later, writes, idle⟩
    | others c =>
      obtain ⟨_, more, first, alsoIdle⟩ := quiet.1
      refine ⟨more ++ later, ?_, ?_⟩
      · rw [play_cons, writes, ← List.append_assoc, ← first]
        rfl
      · intro x there
        rcases List.mem_append.mp there with earlier | there
        · exact alsoIdle x earlier
        · exact idle x there

/-- The changes of a call hand the old agent's burden on. -/
theorem play_trail (made : c.registry.Made) (quiet : (o.start c).Always Quiet turns)
    (found : c.registry.agents.get? o.oldName = some old)
    (spared : ∀ x ∈ waiting ++ c.registry.writes, x.about? ≠ some o.oldName)
    (given : ∀ a, .putAgent a ∈ waiting ++ c.registry.writes → a.name ≠ "") :
    (∃ holder, Trail (o.Keeper old.state.burden) o.oldName (waiting ++ ((o.start c).play turns).writes) holder) ∧
    ∀ a, .putAgent a ∈ waiting ++ ((o.start c).play turns).writes → a.name ≠ "" := by
  have trail : Trail (o.Keeper old.state.burden) o.oldName (waiting ++ c.registry.writes) o.oldName :=
    trail_spared spared
  cases begun : (o.start c).swap with
  | error e =>
    -- A refused call changes nothing: all that was written since is about no agent.
    obtain ⟨more, writes, idle⟩ := refused_quiet begun quiet
    have first : ((o.start c).play turns).writes = c.registry.writes ++ more := writes
    rw [first, ← List.append_assoc]
    refine ⟨⟨_, trail.append (trail_idle idle)⟩, fun a there => ?_⟩
    rcases List.mem_append.mp there with earlier | later
    · exact given a earlier
    · cases idle _ later
  | ok s₀ =>
    obtain ⟨s, ends⟩ := play_begun begun turns
    have keeps : Keeps Quiet (o.Traced old.state.burden waiting) := by
      refine ⟨fun s c around heard s' c' traced _ moves => traced.next moves, ?_⟩
      rintro s c c' traced ⟨agents, more, writes, idle⟩
      exact traced.beside agents writes idle
    have start : (o.start c).Holds (o.Traced old.state.burden waiting) := by
      intro s begun
      have own : ∀ a, c.registry.agents.get? o.oldName = some a → a.state.burden = old.state.burden := by
        intro a there
        rw [Option.some.inj (there.symm.trans found)]
      have laden := Swap.begun_laden begun own
      refine ⟨Registry.made_named made, Crowd.start_runs (Registry.made_named made) begun, own, laden,
        .inl ⟨old, found⟩, fun _ => trail, fun handed => ?_, given⟩
      simp [Swap.HasHanded, Swap.HasRemoved, (start_fits begun).2, SwapPhase.standing?] at handed
    have traced := play_keeps keeps start quiet s ends
    exact ⟨traced.trail, traced.given⟩

/-- Wherever the writer stops bringing the changes of a call to the board, a fresh coordinator recovers the old agent
or the new one with what the old agent worked with. -/
theorem crash_leaves_a_holder (made : c.registry.Made) (quiet : (o.start c).Always Quiet turns)
    (found : c.registry.agents.get? o.oldName = some old) (current : w.UpToDate s c.registry.writes old)
    (reads : ∀ a, .putAgent a ∈ w.queue ++ ((o.start c).play turns).writes → a.ReadsBack)
    (board : fresh.board = some w.board) (empty : fresh.registry.agents = []) (many : Nat) :
    ∃ count c', fresh.recover (BoardWriter.steps many (w.submit ((o.start c).play turns).writes) s).2 =
        (.ok count, c') ∧
      ∃ a, c'.registry.agents.get? a.name = some a ∧ o.Keeper old.state.burden a := by
  have name : old.name = o.oldName := (Registry.made_named made _ _ found).1
  obtain ⟨⟨holder, trail⟩, given⟩ := play_trail made quiet found (name ▸ current.spared) current.given
  have keeper : o.Keeper old.state.burden old := ⟨.inl name, rfl⟩
  obtain ⟨names, listed, inside⟩ := current.listed
  obtain ⟨opened, tidy, unread, index⟩ := current.rules
  have carries : (w.submit ((o.start c).play turns).writes).Carries (o.Keeper old.state.burden) s o.oldName :=
    ⟨⟨opened, tidy, unread, index⟩, ⟨names, _, old, listed, inside, current.shown, keeper⟩, name ▸ current.known,
      old, name ▸ current.shown, keeper⟩
  have fit := fun a there => And.intro (reads a there) (given a there)
  obtain ⟨rules, offers, same⟩ := BoardWriter.steps_carry carries trail fit many
  exact Coordinator.recover_finds rules offers (same ▸ board) empty

/-- The old agent is off the board then, and the list of names still has it. -/
theorem crash_leaves_a_holder_in_removal :
    ∃ count c', ({ board := some Sample.board } : Coordinator).recover
        (BoardWriter.steps 13 (({ board := Sample.board } : BoardWriter).submit Sample.completed.writes)
          Sample.store).2 = (.ok count, c') ∧
      ∃ a, c'.registry.agents.get? a.name = some a ∧ Sample.order.Keeper Sample.worker.state.burden a := by
  have quiet : (Sample.order.start Sample.settled).Always Quiet Sample.replied := by
    refine always_of_mem (fun call t there => ?_) _
    rw [List.eq_of_mem_replicate there]
    trivial
  have current := BoardWriter.first_upToDate Sample.board Sample.worker_readsBack (by decide)
  exact crash_leaves_a_holder Sample.settled_made quiet rfl current Sample.completed_readsBack rfl rfl 13

end Call
end Handover
