import Handover.Proofs.Crowd.Filing
import Handover.Proofs.Writer.Image

/-!
# A coordinator and its writer at work

Agents come and go, calls to replace them go on, and a writer brings the changes to the board whenever it gets to it.
Every change of an agent and every record that is kept is handed to the writer once and in order: `act_mirrors`.
-/

namespace Handover

/-- A coordinator with the calls it serves, its writer and the store that nobody else writes to. -/
structure Bureau where
  crowd : Crowd
  writer : BoardWriter
  store : Store := {}
  /-- All that the writer was handed. -/
  log : List BoardWrite := []

inductive Deed where
  | register (ctx : Context) (a : Registration) (around : Surroundings)
  | unregister (ctx : Context) (name : String) (around : Surroundings)
  | heartbeat (name : String) (now : Instant)
  | updateState (name : String) (state : AgentState)
  /-- A recovery enters an agent that it has read. -/
  | restore (a : Registration)
  /-- One of the calls goes on. -/
  | beat (b : Beat)
  /-- The writer is to tell when it has done all before. -/
  | mark (ticket : Nat)
  /-- The writer does one step. -/
  | write

namespace Bureau

/-- A coordinator and the calls for these orders, over an empty store. -/
def opened (orders : List Order) (config : Config) (board : Blackboard) : Bureau where
  crowd := Crowd.gather orders (Coordinator.ofConfig config (some board))
  writer := { board }

def agents (b : Bureau) : Table Registration := b.crowd.agents

def hand (b : Bureau) (writes : List BoardWrite) : Bureau :=
  { b with writer := b.writer.submit writes, log := b.log ++ writes }

/-- Keeps the calls and the coordinator after a change. What the registry noted goes to the writer. -/
def keep (b : Bureau) (crowd : Crowd) : Bureau :=
  let c := crowd.coordinator
  let kept := { c with registry := { c.registry with writes := [] } }
  { b with crowd := { crowd with coordinator := kept } }.hand c.registry.writes

/-- An operation of the coordinator. One that fails changes nothing. -/
def operate (b : Bureau) (operation : Coordinator → Except Error Coordinator) : Bureau :=
  match operation b.crowd.coordinator with
  | .ok coordinator => b.keep { b.crowd with coordinator }
  | .error _ => b

def act (b : Bureau) : Deed → Bureau
  | .register ctx a around => b.operate fun c => c.register ctx a around
  | .unregister ctx name around => b.operate fun c => c.unregister ctx name around
  | .heartbeat name now => b.operate fun c => do return (← c.heartbeat name now).2
  | .updateState name state => b.operate fun c => c.updateState name state
  | .restore a => b.operate fun c => do return { c with registry := ← c.registry.restore a }
  | .beat beat => b.keep (b.crowd.beat beat)
  | .mark ticket => b.hand [.mark ticket]
  | .write =>
    match b.writer.step b.store with
    | some (writer, store) => { b with writer, store }
    | none => b

def after (b : Bureau) (deeds : List Deed) : Bureau := deeds.foldl act b

/-- The writer does all there is to do. -/
def flush (b : Bureau) : Bureau :=
  let (writer, store) := b.writer.catchUp b.store
  { b with writer, store }

end Bureau

/-! ## Operations of the coordinator -/

namespace Coordinator
variable {c c' : Coordinator} {ctx : Context} {a b : Registration} {around : Surroundings} {name : String}
  {now : Instant} {state : AgentState} {registry : Registry} {f : Registration → Registration}

/-- The agents changed at most in one place, by an operation of the registry. -/
structure Operates (c c' : Coordinator) : Prop where
  alters : c.Alters c'
  made : c'.registry.Made

theorem register_operates (made : c.registry.Made) (done : c.register ctx a around = .ok c') : c.Operates c' := by
  obtain ⟨_, _, done⟩ := ok_of_bind done
  obtain ⟨⟨stored, registry⟩, entered, ⟨⟩⟩ := ok_of_bind done
  exact ⟨alters_change rfl (Registry.register_notes entered), .register made entered⟩

theorem unregister_operates (made : c.registry.Made) (done : c.unregister ctx name around = .ok c') :
    c.Operates c' := by
  obtain ⟨_, _, ⟨⟩⟩ := ok_of_bind done
  exact ⟨alters_change rfl (Registry.unregister_notes _ _), .unregister made name⟩

theorem restore_operates (made : c.registry.Made) (done : c.registry.restore a = .ok registry) :
    c.Operates { c with registry } :=
  ⟨alters_change rfl (Registry.restore_notes done), .restore made done⟩

theorem modify_alters (made : c.registry.Made) (done : c.registry.modify name f = .ok (a, registry))
    (keeps : ∀ a, (f a).name = a.name) : c.Alters { c with registry } := by
  obtain ⟨_, _, _, _, notes⟩ := Registry.modify_notes (Registry.made_named made) done keeps
  exact alters_change rfl notes

theorem heartbeat_operates (made : c.registry.Made) (done : c.heartbeat name now = .ok (a, c')) : c.Operates c' := by
  obtain ⟨⟨a, registry⟩, heard, ⟨⟩⟩ := ok_of_bind done
  exact ⟨modify_alters made heard fun _ => rfl, .heartbeat made heard⟩

theorem updateState_operates (made : c.registry.Made) (done : c.updateState name state = .ok c') : c.Operates c' := by
  obtain ⟨⟨a, registry⟩, updated, ⟨⟩⟩ := ok_of_bind done
  exact ⟨modify_alters made updated fun _ => rfl, .updateState made updated⟩

end Coordinator

/-! ## What the writer is handed -/

namespace Bureau
open BoardWrite
variable {b b' : Bureau} {crowd : Crowd} {x : Session} {more : List BoardWrite} {deeds : List Deed}
  {operation : Coordinator → Except Error Coordinator}

/-- The log has all that the coordinator did, and the board all of that but for what the writer has not done. -/
structure Mirrors (b : Bureau) : Prop where
  made : b.crowd.coordinator.registry.Made
  runs : ∀ i m, b.crowd.Has i m → ∀ s, m.swap = some (.ok s) → m.order.Runs s
  handed : b.crowd.coordinator.registry.writes = []
  agents : b.agents = agentsAfter b.log
  onFile : b.crowd.OnFile (recordsAfter b.log)
  brings : b.writer.Brings b.store b.log

/-- How many of the writes the writer has done. -/
def written (b : Bureau) : Nat := b.log.length - b.writer.queue.length

/-- The writer was handed one write at most, and went on. -/
structure Follows (b b' : Bureau) : Prop where
  board : b'.writer.board = b.writer.board
  log : ∃ more, b'.log = b.log ++ more ∧ more.length ≤ 1
  written : b.written ≤ b'.written

theorem opened_mirrors (orders : List Order) (config : Config) (board : Blackboard) :
    (opened orders config board).Mirrors where
  made := .empty
  runs := fun _ _ there _ begun => nomatch (Crowd.gather_fresh there).1.symm.trans begun
  handed := rfl
  agents := rfl
  onFile := Crowd.gather_onFile orders rfl
  brings := BoardWriter.first_brings board

theorem follows_refl (b : Bureau) : Follows b b :=
  ⟨rfl, ⟨[], (List.append_nil _).symm, Nat.zero_le _⟩, Nat.le_refl _⟩

theorem grown_follows (board : b'.writer.board = b.writer.board) (log : b'.log = b.log ++ more)
    (queue : b'.writer.queue = b.writer.queue ++ more) (short : more.length ≤ 1) : Follows b b' := by
  refine ⟨board, ⟨more, log, short⟩, ?_⟩
  simp only [written, log, queue, List.length_append, Nat.add_sub_add_right, Nat.le_refl]

/-- Calls and coordinator are kept after a change, which the registry has noted. -/
theorem keep_mirrors (mirrors : b.Mirrors) (sane : crowd.Sane) (made : crowd.coordinator.registry.Made)
    (agents : crowd.agents = agentsAfter (b.log ++ crowd.coordinator.registry.writes))
    (onFile : crowd.OnFile (recordsAfter (b.log ++ crowd.coordinator.registry.writes))) : (b.keep crowd).Mirrors :=
  ⟨.drained made, sane.runs, rfl, agents, onFile.of_same rfl, BoardWriter.submit_brings mirrors.brings _⟩

theorem Mirrors.sane (mirrors : b.Mirrors) : b.crowd.Sane := ⟨Registry.made_named mirrors.made, mirrors.runs⟩

theorem altered_mirrors (mirrors : b.Mirrors) (alters : b.crowd.coordinator.Alters crowd.coordinator)
    (made : crowd.coordinator.registry.Made) (sane : crowd.Sane) (onFile : crowd.OnFile (recordsAfter b.log)) :
    (b.keep crowd).Mirrors ∧ Follows b (b.keep crowd) := by
  rcases alters.registry with same | ⟨w, name, about, notes⟩
  · have writes : crowd.coordinator.registry.writes = [] := by rw [same, mirrors.handed]
    have agents : crowd.agents = agentsAfter b.log := (congrArg Registry.agents same).trans mirrors.agents
    refine ⟨keep_mirrors mirrors sane made ?_ ?_, grown_follows rfl rfl rfl ?_⟩
    · rwa [writes, List.append_nil]
    · rwa [writes, List.append_nil]
    · simp [writes]
  · have writes : crowd.coordinator.registry.writes = [w] := by rw [notes.writes, mirrors.handed, List.nil_append]
    have before : b.crowd.coordinator.registry.agents = agentsAfter b.log := mirrors.agents
    refine ⟨keep_mirrors mirrors sane made ?_ ?_, grown_follows rfl rfl rfl ?_⟩
    · rw [writes, agentsAfter_snoc, ← before]
      exact notes.agents
    · rwa [writes, recordsAfter_snoc, record_agent about]
    · simp [writes]

theorem stored_mirrors (mirrors : b.Mirrors) (stores : b.crowd.coordinator.Stores x crowd.coordinator)
    (made : crowd.coordinator.registry.Made) (sane : crowd.Sane)
    (onFile : crowd.OnFile ((recordsAfter b.log).insert x.id x)) :
    (b.keep crowd).Mirrors ∧ Follows b (b.keep crowd) := by
  have writes : crowd.coordinator.registry.writes = [.putSession x] := by
    rw [stores.notes.writes, mirrors.handed, List.nil_append]
  refine ⟨keep_mirrors mirrors sane made ?_ ?_, grown_follows rfl rfl rfl ?_⟩
  · rw [writes, agentsAfter_snoc]
    exact stores.notes.agents.trans mirrors.agents
  · rwa [writes, recordsAfter_snoc]
  · simp [writes]

theorem operate_mirrors (mirrors : b.Mirrors)
    (operates : ∀ c, operation b.crowd.coordinator = .ok c → b.crowd.coordinator.Operates c) :
    (b.operate operation).Mirrors ∧ Follows b (b.operate operation) := by
  unfold operate
  split
  · rename_i c done
    obtain ⟨alters, made⟩ := operates c done
    exact altered_mirrors mirrors alters made ⟨Registry.made_named made, mirrors.runs⟩
      (mirrors.onFile.of_same alters.sessions)
  · exact ⟨mirrors, follows_refl b⟩

theorem beat_mirrors (mirrors : b.Mirrors) (beat : Beat) :
    (b.keep (b.crowd.beat beat)).Mirrors ∧ Follows b (b.keep (b.crowd.beat beat)) := by
  have goes : Crowd.Goes b.crowd beat (b.crowd.beat beat) := Crowd.beat_goes
  have sane := Crowd.goes_sane mirrors.sane goes
  generalize b.crowd.beat beat = crowd at goes sane
  cases goes with
  | stayed =>
    exact altered_mirrors mirrors (Coordinator.alters_same _) mirrors.made sane mirrors.onFile
  | placed there fresh =>
    exact altered_mirrors mirrors (Coordinator.alters_same _) mirrors.made sane
      (Crowd.placed_onFile mirrors.onFile there fresh)
  | moved there begun moves =>
    have made := Swap.moves_made mirrors.made moves
    have on := (mirrors.runs _ _ there _ begun).course
    rcases Swap.moves_files mirrors.sane.named on moves with ⟨alters, started, still⟩ | ⟨x, stores, own, last, _⟩
    · exact altered_mirrors mirrors alters made sane
        (Crowd.altered_onFile mirrors.onFile there begun moves alters started still)
    · exact stored_mirrors mirrors stores made sane
        (Crowd.stored_onFile mirrors.onFile there begun moves stores own last)

theorem write_mirrors (mirrors : b.Mirrors) : (b.act .write).Mirrors ∧ Follows b (b.act .write) := by
  simp only [act]
  split
  · rename_i writer store stepped
    obtain ⟨board, brings⟩ := BoardWriter.step_brings mirrors.brings stepped
    refine ⟨⟨mirrors.made, mirrors.runs, mirrors.handed, mirrors.agents, mirrors.onFile, brings⟩, board,
      ⟨[], (List.append_nil _).symm, Nat.zero_le _⟩, ?_⟩
    exact Nat.sub_le_sub_left (BoardWriter.step_queue stepped).length_le _
  · exact ⟨mirrors, follows_refl b⟩

/-- Whatever is done next, the writer is handed what it changes, and once. -/
theorem act_mirrors (mirrors : b.Mirrors) (d : Deed) : (b.act d).Mirrors ∧ Follows b (b.act d) := by
  have made := mirrors.made
  cases d with
  | register ctx a around =>
    dsimp only [act]
    exact operate_mirrors mirrors fun _ done => Coordinator.register_operates made done
  | unregister ctx name around =>
    dsimp only [act]
    exact operate_mirrors mirrors fun _ done => Coordinator.unregister_operates made done
  | heartbeat name now =>
    dsimp only [act]
    refine operate_mirrors mirrors fun c done => ?_
    obtain ⟨⟨a, c⟩, heard, ⟨⟩⟩ := ok_of_bind done
    exact Coordinator.heartbeat_operates made heard
  | updateState name state =>
    dsimp only [act]
    exact operate_mirrors mirrors fun _ done => Coordinator.updateState_operates made done
  | restore a =>
    dsimp only [act]
    refine operate_mirrors mirrors fun c done => ?_
    obtain ⟨registry, entered, ⟨⟩⟩ := ok_of_bind done
    exact Coordinator.restore_operates made entered
  | beat beat => exact beat_mirrors mirrors beat
  | mark ticket =>
    have records : recordsAfter (b.log ++ [.mark ticket]) = recordsAfter b.log := recordsAfter_snoc _ _
    refine ⟨⟨made, mirrors.runs, mirrors.handed, ?_, ?_, BoardWriter.submit_brings mirrors.brings _⟩,
      grown_follows rfl rfl rfl (Nat.le_refl 1)⟩
    · exact mirrors.agents.trans (agentsAfter_snoc b.log (.mark ticket)).symm
    · exact records ▸ mirrors.onFile
  | write => exact write_mirrors mirrors

theorem after_mirrors (mirrors : b.Mirrors) (deeds : List Deed) : (b.after deeds).Mirrors := by
  induction deeds generalizing b with
  | nil => exact mirrors
  | cons d rest ih => exact ih (act_mirrors mirrors d).1

theorem after_board (mirrors : b.Mirrors) (deeds : List Deed) : (b.after deeds).writer.board = b.writer.board := by
  induction deeds generalizing b with
  | nil => rfl
  | cons d rest ih =>
    obtain ⟨mirrors', follows⟩ := act_mirrors mirrors d
    exact (ih mirrors').trans follows.board

end Bureau
end Handover
