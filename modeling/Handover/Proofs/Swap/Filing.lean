import Handover.Proofs.Coordinator
import Handover.Proofs.Swap.Edits
import Handover.Proofs.Swap.Growth

/-!
# What a turn of a swap puts on record

At a turn a swap either keeps its record with the coordinator, and that at its first turn and at its last one in any
case, or it makes one change to an agent at most: `moves_files`.
-/

namespace Handover

namespace Coordinator
variable {c c' : Coordinator} {x : Session} {id : String}

/-- The records are left alone, and the registry makes one change to an agent at most. -/
structure Alters (c c' : Coordinator) : Prop where
  most : c'.maxSessions = c.maxSessions
  sessions : c'.sessions = c.sessions
  registry : c'.registry = c.registry ∨ ∃ w name, w.about? = some name ∧ Registry.Notes c.registry w c'.registry

/-- The record is kept, and the registry notes that. -/
structure Stores (c : Coordinator) (x : Session) (c' : Coordinator) : Prop where
  most : c'.maxSessions = c.maxSessions
  sessions : c'.sessions = prune c.maxSessions (c.sessions.insert x.id x)
  notes : Registry.Notes c.registry (.putSession x) c'.registry

theorem alters_same (c : Coordinator) : c.Alters c := ⟨rfl, rfl, .inl rfl⟩

theorem alters_change {registry : Registry} {w : BoardWrite} (about : w.about? = some id)
    (notes : Registry.Notes c.registry w registry) : c.Alters { c with registry } :=
  ⟨rfl, rfl, .inr ⟨w, id, about, notes⟩⟩

theorem stored_stores (c : Coordinator) (x : Session) (e : SwapEvent) : c.Stores x ((c.storeSession x).announce e) :=
  ⟨rfl, rfl, rfl, rfl⟩

/-- The records are kept in order, each under its own id. -/
structure Filed (c : Coordinator) : Prop where
  ordered : c.sessions.Ordered
  own : ∀ id x, c.sessions.get? id = some x → x.id = id

/-- What is kept after a record came in was kept before or came in then. -/
theorem Stores.kept (stores : c.Stores x c') {y : Session} (there : c'.sessions.get? id = some y) :
    (c.sessions.insert x.id x).get? id = some y := by
  rw [stores.sessions] at there
  rcases get?_prune c.maxSessions (c.sessions.insert x.id x) id with same | ⟨gone, _⟩
  · exact same.symm.trans there
  · exact nomatch gone.symm.trans there

theorem Filed.stored (filed : c.Filed) (x : Session) :
    (c.sessions.insert x.id x).Ordered ∧ ∀ id y, (c.sessions.insert x.id x).get? id = some y → y.id = id := by
  refine ⟨Table.ordered_insert filed.ordered _ _, fun id y there => ?_⟩
  rw [Table.get?_insert] at there
  split at there
  · rename_i same
    cases there
    exact same.symm
  · exact filed.own id y there

theorem Stores.filed (stores : c.Stores x c') (filed : c.Filed) : c'.Filed := by
  obtain ⟨ordered, own⟩ := filed.stored x
  refine ⟨?_, fun id y there => own id y (stores.kept there)⟩
  rw [stores.sessions]
  exact prune_ordered ordered _

theorem Stores.keeps (stores : c.Stores x c') (filed : c.Filed) {y : Session}
    (there : (c.sessions.insert x.id x).get? id = some y) (live : y.isTerminal = false) :
    c'.sessions.get? id = some y := by
  obtain ⟨ordered, own⟩ := filed.stored x
  rw [stores.sessions]
  exact prune_keeps ordered own there live _

end Coordinator

namespace Swap
variable {s s' : Swap} {c c' : Coordinator} {around : Surroundings} {heard : Except Error (Option Message)} {e : Error}
  {name : String} {a : Registration} {registry : Registry}

theorem status_alters {status : AgentStatus} (named : Registry.Named c.registry.agents)
    (done : c.registry.setStatus name status = .ok (a, registry)) : c.Alters { c with registry } := by
  obtain ⟨a, _, _, _, notes⟩ := Registry.modify_notes named done fun _ => rfl
  exact Coordinator.alters_change rfl notes

theorem undo_alters (s : Swap) (c : Coordinator) : c.Alters (s.undo c) := by
  unfold undo
  split
  · exact Coordinator.alters_same c
  · split
    · exact Coordinator.alters_change rfl (Registry.unregister_notes _ _)
    · split
      · rename_i restored
        exact Coordinator.alters_change rfl (Registry.restore_notes restored)
      · exact Coordinator.alters_same c

theorem stops_amid (why : Stops s c around heard e) : s.phase ≠ .opening ∧ s.phase ≠ .finished := by
  cases why with
  | gaveUp heeds =>
    constructor <;> intro phase <;> simp [heedsCaller, phase] at heeds
  | _ => simp_all

theorem failWith_phase (s : Swap) (e : Error) : (s.failWith e).phase ≠ .finished ∧ (s.failWith e).phase ≠ .opening := by
  unfold failWith
  split <;> simp

theorem moves_begun (moves : Moves s c around heard s' c') : s'.phase ≠ .opening := by
  cases moves with
  | entered =>
    dsimp only
    split <;> nofun
  | stopped | vanished | unfinished => exact (failWith_phase _ _).2
  | rested phase => rcases phase with phase | phase <;> simp [phase]
  | _ => nofun

theorem stepDone_live (on : OnCourse s) (phase : s.phase = .leaving stage) (now : Instant) :
    (s.stepDone now).isTerminal = false :=
  on.live (m := .leaving stage) (by rw [phase]; rfl)

/-- A turn changes an agent at most, and a swap that is over stays as it is, or it keeps the record of one that is not.
What is kept is that of a session that goes on, and at the last turn the one the swap ends with; the record has grown up
to that point and grows from there. -/
theorem moves_files (named : Registry.Named c.registry.agents) (on : OnCourse s) (moves : Moves s c around heard s' c') :
    (c.Alters c' ∧ s.phase ≠ .opening ∧ (s.phase = .finished ∨ s'.phase = .finished → s' = s)) ∨
      ∃ x, c.Stores x c' ∧ x.id = s.session.id ∧ (s'.phase = .finished ∧ x = s'.session ∨
        s'.phase ≠ .finished ∧ x.isTerminal = false) ∧ s.phase ≠ .finished ∧ s.session.GrowsInto x ∧
        x.GrowsInto s'.session := by
  cases moves with
  | opened phase =>
    have live : s.session.isTerminal = false := on.live (by rw [phase]; rfl)
    exact .inr ⟨s.session, Coordinator.stored_stores _ _ _, rfl, .inr ⟨by rintro ⟨⟩, live⟩, by simp [phase], .refl _,
      .refl _⟩
  | left phase =>
    exact .inr ⟨s.stepDone around.time, Coordinator.stored_stores _ _ _, rfl,
      .inr ⟨by rintro ⟨⟩, stepDone_live on phase _⟩, by simp [phase], stepDone_grows on phase _, .refl _⟩
  | won phase done =>
    exact .inr ⟨s.stepDone around.time, Coordinator.stored_stores _ _ _, rfl,
      .inr ⟨by rintro ⟨⟩, stepDone_live on phase _⟩, by simp [phase], stepDone_grows on phase _,
      Session.complete_grows done⟩
  | unfinished phase =>
    exact .inr ⟨s.stepDone around.time, Coordinator.stored_stores _ _ _, rfl,
      .inr ⟨(failWith_phase _ _).1, stepDone_live on phase _⟩, by simp [phase], stepDone_grows on phase _, .refl _⟩
  | closed phase =>
    have heading := congrArg Prod.fst (closed_heading s around.time)
    exact .inr ⟨s.closed around.time, Coordinator.stored_stores _ _ _, heading, .inl ⟨rfl, rfl⟩,
      by simp [phase], closed_grows s _, .refl _⟩
  | entered phase =>
    refine .inl ⟨Coordinator.alters_same c, by simp [phase], fun done => ?_⟩
    rw [phase] at done
    rcases done with done | done
    · cases done
    · split at done <;> cases done
  | vanished phase =>
    refine .inl ⟨Coordinator.alters_same c, by simp [phase], fun done => ?_⟩
    rw [phase] at done
    exact absurd done (by simp [failWith_phase])
  | stopped why =>
    obtain ⟨begun, unended⟩ := stops_amid why
    exact .inl ⟨Coordinator.alters_same c, begun, fun done => absurd done (by simp [failWith_phase, unended])⟩
  | rested phase =>
    exact .inl ⟨Coordinator.alters_same c, by rcases phase with phase | phase <;> simp [phase], fun _ => rfl⟩
  | paused phase done | activated phase done | revived phase done =>
    exact .inl ⟨status_alters named done, by simp [phase], by simp [phase]⟩
  | enrolled phase done =>
    exact .inl ⟨Coordinator.alters_change rfl (Registry.register_notes done), by simp [phase], by simp [phase]⟩
  | handed phase _ done =>
    obtain ⟨a, _, _, _, notes⟩ := Registry.modify_notes named done fun _ => rfl
    exact .inl ⟨Coordinator.alters_change rfl notes, by simp [phase], by simp [phase]⟩
  | removed phase =>
    exact .inl ⟨Coordinator.alters_change rfl (Registry.unregister_notes _ _), by simp [phase], by simp [phase]⟩
  | undone phase => exact .inl ⟨undo_alters s c, by simp [phase], by simp [phase]⟩
  | captured phase | told phase | looked phase | verified phase | unrevived phase | resumed phase =>
    exact .inl ⟨Coordinator.alters_same c, by simp [phase], by simp [phase]⟩

end Swap
end Handover
