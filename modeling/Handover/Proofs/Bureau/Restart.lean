import Handover.Proofs.Bureau.Image
import Handover.Proofs.Recovery.Additions

/-!
# A restart

Once the writer has done all, a new coordinator on the same store recovers the registry as it was, if what is written
of its agents reads back: `restart_recovers`. What its own writer does then leaves nothing more to recover.
-/

namespace Handover

namespace Blackboard
variable {b : Blackboard} {s : Store} {names : List String} {agents : Table Registration}

theorem listed_getJson (opened : s.Open)
    (listed : b.ListsNames s names ∨ b.holds s indexKey = none ∧ names = []) :
    ∃ listed, b.getJson (Decode.list Decode.text) s indexKey = .ok listed ∧
      listed.getD [] = names := by
  rw [getJson_open opened]
  rcases listed with listed | ⟨missing, rfl⟩
  · have text : s.entries.get? (b.fullKey indexKey) = some _ := listed
    rw [text]
    simp only [Decode.ofText_strings]
    exact ⟨some names, rfl, rfl⟩
  · have text : s.entries.get? (b.fullKey indexKey) = none := missing
    rw [text]
    exact ⟨none, rfl, rfl⟩

/-- What is read of agents that read back is the agents. -/
theorem depicts_agent? (opened : s.Open) (depicts : b.Depicts s agents)
    (reads : ∀ name a, agents.get? name = some a → a.ReadsBack) (name : String) :
    b.agent? s name = agents.get? name := by
  have held : s.entries.get? (b.fullKey (agentKey name)) = _ := depicts name
  rw [agent?, getJson_open opened, held]
  cases found : agents.get? name with
  | none => rfl
  | some a =>
    have read : Decode.ofText Registration.decode a.encode.render = .ok a := reads name a found
    simp only [Option.map_some, read]

end Blackboard

namespace BoardWriter
variable {w w' : BoardWriter} {s s' : Store} {names : List String}

/-- The writer is only to put agents that the board lists. -/
structure Idles (w : BoardWriter) (s : Store) (names : List String) : Prop where
  opened : s.Open
  calm : w.indexDue = false
  listed : w.board.ListsNames s names ∨ w.board.holds s Blackboard.indexKey = none ∧ names = []
  index : ∀ index, w.index = some index → ∀ name ∈ names, index.contains name = true
  queued : ∀ x ∈ w.queue, ∃ a, x = .putAgent a ∧ a.name ∈ names

theorem step_idles (idles : Idles w s names) (stepped : w.step s = some (w', s')) :
    w'.board = w.board ∧ Idles w' s' names := by
  unfold step at stepped
  split at stepped
  · cases stepped
    refine ⟨rfl, idles.opened, idles.calm, idles.listed, ?_, idles.queued⟩
    rintro _ ⟨⟩ name there
    obtain ⟨listed, read, rfl⟩ := Blackboard.listed_getJson idles.opened idles.listed
    cases listed with
    | none => exact nomatch there
    | some names => exact (readIndex_contains read).mpr there
  · rename_i index kept
    split at stepped
    · rename_i due
      exact nomatch idles.calm.symm.trans due
    · split at stepped
      · cases stepped
      · rename_i x rest queued
        obtain ⟨a, rfl, listed⟩ := idles.queued x (queued ▸ .head _)
        have known := idles.index index kept a.name listed
        simp only [apply, Blackboard.setJson_open idles.opened, known, if_true] at stepped
        cases stepped
        refine ⟨rfl, Blackboard.written_open idles.opened _ _, idles.calm, ?_, idles.index, fun x there => ?_⟩
        · simp only [Blackboard.ListsNames, Blackboard.written_holds,
            if_neg (Blackboard.agentKey_ne_indexKey a.name).symm]
          exact idles.listed
        · exact idles.queued x (queued ▸ .tail _ there)

theorem steps_idle (idles : Idles w s names) (many : Nat) :
    (steps many w s).1.board = w.board ∧ Idles (steps many w s).1 (steps many w s).2 names := by
  induction many generalizing w s with
  | zero => exact ⟨rfl, idles⟩
  | succ many ih =>
    unfold steps
    split
    · exact ⟨rfl, idles⟩
    · rename_i w' s' stepped
      obtain ⟨board, idles'⟩ := step_idles idles stepped
      rw [← board]
      exact ih idles'

end BoardWriter

namespace Coordinator
variable {board : Blackboard} {s : Store} {agents : Table Registration} {fresh c' : Coordinator} {many : Nat}

/-- A recovery that adds to nothing what the board has all of ends with just that. -/
theorem Adds.recovered (adds : Adds board s agents.names fresh many c') (empty : fresh.registry = {})
    (ordered : agents.Ordered) (shown : ∀ name, board.agent? s name = agents.get? name) :
    c'.registry.agents = agents ∧ many = agents.length := by
  have all : c'.registry.agents = agents := by
    refine (adds.ordered (empty ▸ Table.ordered_nil)).ext ordered fun name => ?_
    rw [adds.agents, shown, empty]
    split
    · rfl
    · rename_i unlisted
      exact (Table.get?_none_of_not_mem unlisted).symm
  refine ⟨all, ?_⟩
  obtain ⟨news, perm, rfl, _⟩ := adds.added
  have length := perm.length_eq
  rw [all, empty, List.length_append, Table.names, List.length_map] at length
  exact length.symm

/-- What a recovery hands to a new writer are agents that the board lists. -/
theorem Adds.idles {names : List String} (adds : Adds board s names fresh many c') (empty : fresh.registry = {})
    (opened : s.Open)
    (listed : board.ListsNames s names ∨ board.holds s Blackboard.indexKey = none ∧ names = []) :
    (({ board } : BoardWriter).submit c'.registry.writes).Idles s names := by
  obtain ⟨more, writes, puts⟩ := adds.writes
  have queue : c'.registry.writes = more := by rw [writes, empty, List.nil_append]
  exact ⟨opened, rfl, listed, nofun, fun x there => puts x (queue ▸ there)⟩

end Coordinator

namespace Bureau
open BoardWrite
variable {b : Bureau} {board : Blackboard} {s : Store} {agents : Table Registration} {fresh : Coordinator}

/-- A new coordinator has all agents that the board has, and then there is nothing left to recover. -/
theorem depicted_recovers (opened : s.Open) (depicts : board.Depicts s agents) (ordered : agents.Ordered)
    (named : Registry.Named agents)
    (listed : board.ListsNames s agents.names ∨ board.holds s Blackboard.indexKey = none ∧ agents.names = [])
    (reads : ∀ name a, agents.get? name = some a → a.ReadsBack) (same : fresh.board = some board)
    (empty : fresh.registry = {}) :
    ∃ c', fresh.recover s = (.ok agents.length, c') ∧ c'.registry.agents = agents ∧
      ∀ many, c'.recover (BoardWriter.steps many (({ board } : BoardWriter).submit c'.registry.writes) s).2 =
        (.ok 0, c') := by
  have shown := Blackboard.depicts_agent? opened depicts reads
  obtain ⟨found, read, names⟩ := Blackboard.listed_getJson opened listed
  have wellFiled : Coordinator.WellFiled board s agents.names fresh := by
    intro name _ _ a there
    rw [shown] at there
    exact named name a there
  obtain ⟨many, c', ends, adds⟩ := Coordinator.recoverNames_adds wellFiled 0
  obtain ⟨all, rfl⟩ := adds.recovered empty ordered shown
  have board' : c'.board = some board := by
    rw [adds.rest]
    exact same
  refine ⟨c', ?_, all, fun many => ?_⟩
  · simp only [Coordinator.recover, same, read, names]
    rw [ends, Nat.zero_add]
  · obtain ⟨unmoved, idles⟩ := BoardWriter.steps_idle (adds.idles empty opened listed) many
    have listed' := idles.listed
    rw [unmoved] at listed'
    obtain ⟨found', read', names'⟩ := Blackboard.listed_getJson idles.opened listed'
    have again : board.getJson (Decode.list Decode.text) _ Blackboard.indexKey = .ok found' := read'
    simp only [Coordinator.recover, board', again, names']
    refine Coordinator.recoverNames_idle (fun name there => .inl ?_) 0
    rw [Registry.contains, all]
    exact Table.contains_iff_mem.mpr there

/-- A new coordinator on a store that was flushed has the registry of the one before, and recovers nothing more
whatever its own writer has done by then. -/
theorem restart_recovers (orders : List Order) (config : Config) (board : Blackboard) (deeds : List Deed)
    (reads : ∀ name a, ((opened orders config board).after deeds).agents.get? name = some a → a.ReadsBack)
    (same : fresh.board = some board) (empty : fresh.registry = {}) :
    ∃ c', fresh.recover ((opened orders config board).after deeds).flush.store =
        (.ok ((opened orders config board).after deeds).agents.length, c') ∧
      c'.registry.agents = ((opened orders config board).after deeds).agents ∧
      ∀ many, c'.recover (BoardWriter.steps many (({ board } : BoardWriter).submit c'.registry.writes)
        ((opened orders config board).after deeds).flush.store).2 = (.ok 0, c') := by
  have first := opened_mirrors orders config board
  have mirrors := after_mirrors first deeds
  have own : ((opened orders config board).after deeds).writer.board = board := after_board first deeds
  obtain ⟨pictured, unput⟩ := flush_pictured mirrors
  rw [own] at pictured unput
  obtain ⟨_, brought, _⟩ := BoardWriter.catchUp_brings mirrors.brings
  refine depicted_recovers brought.opened pictured.agents pictured.sorted (Registry.made_named mirrors.made) ?_ reads
    same empty
  rcases pictured.listed with listed | missing
  · exact .inl listed
  · refine .inr ⟨missing, ?_⟩
    have none : ((opened orders config board).after deeds).agents = [] :=
      mirrors.agents.trans (agentsAfter_unput (unput missing))
    exact congrArg Table.names none

end Bureau

namespace Sample

/-- An agent comes, another one comes and goes, and the first is heard of. -/
def deeds : List Deed :=
  [.register order.context elder { time := ⟨2, 0⟩ }, .register order.context third { time := ⟨3, 0⟩ }, .write, .write,
    .unregister order.context "third" { time := ⟨4, 0⟩ }, .heartbeat "elder" ⟨5, 0⟩]

def heard : Registration := { elder with registeredAt := ⟨2, 0⟩, lastHeartbeat := ⟨5, 0⟩ }

set_option maxRecDepth 4000 in
theorem heard_readsBack : heard.ReadsBack := (Decode.ofText_render rfl).trans rfl

end Sample

namespace Bureau

theorem restart_recovers_one :
    ∃ c', ({ board := some {} } : Coordinator).recover ((opened [] {} {}).after Sample.deeds).flush.store =
        (.ok 1, c') ∧ c'.registry.agents = [("elder", Sample.heard)] ∧
      ∀ many, c'.recover (BoardWriter.steps many (({} : BoardWriter).submit c'.registry.writes)
        ((opened [] {} {}).after Sample.deeds).flush.store).2 = (.ok 0, c') := by
  have agents : ((opened [] {} {}).after Sample.deeds).agents = [("elder", Sample.heard)] := rfl
  have reads : ∀ name a, ((opened [] {} {}).after Sample.deeds).agents.get? name = some a → a.ReadsBack := by
    intro name a found
    rw [agents, Table.get?] at found
    split at found
    · cases found
      exact Sample.heard_readsBack
    · cases found
  have same : ({ board := some {} } : Coordinator).board = some {} := rfl
  have recovers := restart_recovers [] {} {} Sample.deeds reads same rfl
  rwa [agents] at recovers

end Bureau
end Handover
