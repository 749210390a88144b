import Handover.Proofs.Writer

/-!
# The board as the image of the changes

After each step of the writer the board has the agents, the sessions and the list of names that the changes brought
to it so far amount to, and nothing else: `step_brings`. A writer that goes on long enough brings all of them:
`catchUp_rests`.
-/

namespace Handover

namespace BoardWrite
variable {changes : List BoardWrite} {x : BoardWrite}

/-- The agents that changes leave if there were none before. -/
def agentsAfter (changes : List BoardWrite) : Table Registration := changes.foldl (fun agents x => x.change agents) []

/-- The records of sessions after a write. -/
def record : BoardWrite → Table Session → Table Session
  | .putSession s, records => records.insert s.id s
  | .putAgent _, records | .removeAgent _, records | .mark _, records => records

/-- The last record of each session in the changes. -/
def recordsAfter (changes : List BoardWrite) : Table Session := changes.foldl (fun records x => x.record records) []

theorem agentsAfter_snoc (changes : List BoardWrite) (x : BoardWrite) :
    agentsAfter (changes ++ [x]) = x.change (agentsAfter changes) := by
  rw [agentsAfter, List.foldl_append]
  rfl

theorem recordsAfter_snoc (changes : List BoardWrite) (x : BoardWrite) :
    recordsAfter (changes ++ [x]) = x.record (recordsAfter changes) := by
  rw [recordsAfter, List.foldl_append]
  rfl

theorem change_ordered {agents : Table Registration} (ordered : agents.Ordered) (x : BoardWrite) :
    (x.change agents).Ordered := by
  cases x with
  | putAgent a => exact Table.ordered_insert ordered a.name a
  | removeAgent name => exact Table.ordered_erase ordered name
  | putSession | mark => exact ordered

theorem agentsAfter_ordered (changes : List BoardWrite) : (agentsAfter changes).Ordered := by
  have folded : ∀ agents : Table Registration, agents.Ordered →
      (changes.foldl (fun agents x => x.change agents) agents).Ordered := by
    induction changes with
    | nil => exact fun _ ordered => ordered
    | cons x rest ih => exact fun agents ordered => ih _ (change_ordered ordered x)
  exact folded [] Table.ordered_nil

theorem agentsAfter_unput (unput : ∀ a, .putAgent a ∉ changes) : agentsAfter changes = [] := by
  induction changes with
  | nil => rfl
  | cons x rest ih =>
    have later := ih fun a there => unput a (.tail _ there)
    cases x with
    | putAgent a => exact absurd (.head _) (unput a)
    | removeAgent | putSession | mark => exact later

theorem unput_snoc (unput : ∀ a, .putAgent a ∉ changes) (other : ∀ a, x ≠ .putAgent a) :
    ∀ a, .putAgent a ∉ changes ++ [x] := by
  intro a there
  rcases List.mem_append.mp there with earlier | last
  · exact unput a earlier
  · exact other a (List.mem_singleton.mp last).symm

theorem record_agent {name : String} (about : x.about? = some name) (records : Table Session) :
    x.record records = records := by
  cases x with
  | putAgent | removeAgent => rfl
  | putSession | mark => cases about

end BoardWrite

namespace Blackboard
variable {b : Blackboard} {s : Store} {key other name id : String} {value : Json}

theorem fullKey_eq_iff : b.fullKey other = b.fullKey key ↔ other = key :=
  ⟨append_cancel, fun same => congrArg b.fullKey same⟩

theorem agentKey_eq_iff : agentKey other = agentKey name ↔ other = name :=
  ⟨append_cancel, fun same => congrArg agentKey same⟩

theorem swapKey_eq_iff : swapKey other = swapKey id ↔ other = id :=
  ⟨append_cancel, fun same => congrArg swapKey same⟩

/-- What the store has under a key of the board. -/
def holds (b : Blackboard) (s : Store) (key : String) : Option String := s.entries.get? (b.fullKey key)

theorem written_holds (b : Blackboard) (s : Store) (key other : String) (value : Json) :
    b.holds (b.written s key value) other = if other = key then some value.render else b.holds s other := by
  simp only [holds, written, Table.get?_insert, fullKey_eq_iff]

theorem cleared_holds (b : Blackboard) (s : Store) (key other : String) :
    b.holds (b.cleared s key) other = if other = key then none else b.holds s other := by
  simp only [holds, cleared, Table.get?_erase, fullKey_eq_iff]

/-- The entries of agents on the board are the JSON of these agents. -/
def Depicts (b : Blackboard) (s : Store) (agents : Table Registration) : Prop :=
  ∀ name, b.holds s (agentKey name) = (agents.get? name).map fun a => a.encode.render

/-- The entries of sessions on the board are the JSON of these records. -/
def Records (b : Blackboard) (s : Store) (records : Table Session) : Prop :=
  ∀ id, b.holds s (swapKey id) = (records.get? id).map fun x => x.encode.render

/-- Every key of the store is the key of an agent, of a session or of the list of names on the board. -/
def Owns (b : Blackboard) (s : Store) : Prop :=
  ∀ full ∈ s.entries.names,
    (∃ name, full = b.fullKey (agentKey name)) ∨ (∃ id, full = b.fullKey (swapKey id)) ∨ full = b.fullKey indexKey

/-- The board lists these names. -/
def ListsNames (b : Blackboard) (s : Store) (names : List String) : Prop :=
  b.holds s indexKey = some (Json.ofStrings names).render

theorem written_owns (owns : b.Owns s) (key : String) (value : Json)
    (own : (∃ name, key = agentKey name) ∨ (∃ id, key = swapKey id) ∨ key = indexKey) :
    b.Owns (b.written s key value) := by
  intro full there
  rcases Table.mem_names_insert.mp there with rfl | earlier
  · rcases own with ⟨name, rfl⟩ | ⟨id, rfl⟩ | rfl
    · exact .inl ⟨name, rfl⟩
    · exact .inr (.inl ⟨id, rfl⟩)
    · exact .inr (.inr rfl)
  · exact owns full earlier

theorem cleared_owns (owns : b.Owns s) (key : String) : b.Owns (b.cleared s key) :=
  fun full there => owns full ((Table.names_erase_sublist _ _).subset there)

end Blackboard

namespace BoardWriter
open BoardWrite Blackboard
variable {w w' : BoardWriter} {s s' : Store} {x : BoardWrite} {index : Table Unit} {a : Registration}
  {done changes : List BoardWrite}

/-- The store has what these changes amount to and nothing else, and the writer's list has the names of their
agents. -/
structure Brought (w : BoardWriter) (s : Store) (done : List BoardWrite) : Prop where
  opened : s.Open
  agents : w.board.Depicts s (agentsAfter done)
  records : w.board.Records s (recordsAfter done)
  owns : w.board.Owns s
  index : ∀ index, w.index = some index → index = (agentsAfter done).keys
  unread : w.index = none → w.indexDue = false
  /-- The list on the board is current, unless it is to be written next; there is none if no agent was ever put. -/
  listed : w.indexDue = false → w.board.ListsNames s (agentsAfter done).names ∨
    w.board.holds s indexKey = none ∧ ∀ a, .putAgent a ∉ done

/-- Of the changes the writer has brought all but those in its queue to the board. -/
def Brings (w : BoardWriter) (s : Store) (changes : List BoardWrite) : Prop :=
  ∃ done, changes = done ++ w.queue ∧ Brought w s done

/-- A change that puts no agent leaves the list as it is, or leaves the board without one. -/
theorem listed_snoc (brought : Brought w s done) (calm : w.indexDue = false) (other : ∀ a, x ≠ .putAgent a) :
    w.board.ListsNames s (agentsAfter done).names ∨
      w.board.holds s indexKey = none ∧ ∀ a, .putAgent a ∉ done ++ [x] :=
  (brought.listed calm).imp_right fun ⟨missing, unput⟩ => ⟨missing, unput_snoc unput other⟩

/-- A writer over an empty store. -/
theorem first_brings (board : Blackboard) : Brings { board } {} [] := by
  refine ⟨[], rfl, rfl, fun _ => rfl, fun _ => rfl, ?_, nofun, fun _ => rfl, fun _ => .inr ⟨rfl, ?_⟩⟩
  · exact fun full there => nomatch there
  · exact fun a there => nomatch there

theorem readIndex_brought (brought : Brought w s done) (calm : w.indexDue = false) :
    w.readIndex s = (agentsAfter done).keys := by
  have read := getJson_open (b := w.board) brought.opened (Decode.list Decode.text) indexKey
  rcases brought.listed calm with listed | ⟨missing, unput⟩
  · have text : s.entries.get? (w.board.fullKey indexKey) = some _ := listed
    simp only [text, Decode.ofText_strings] at read
    simp only [readIndex, read]
    exact Table.ofList_names (agentsAfter_ordered done)
  · have text : s.entries.get? (w.board.fullKey indexKey) = _ := missing
    simp only [text] at read
    simp only [readIndex, read, agentsAfter_unput unput]
    rfl

theorem read_brought (brought : Brought w s done) (unread : w.index = none) :
    Brought { w with index := some (w.readIndex s) } s done := by
  have read := readIndex_brought brought (brought.unread unread)
  refine ⟨brought.opened, brought.agents, brought.records, brought.owns, ?_, nofun, brought.listed⟩
  rintro _ ⟨⟩
  exact read

theorem due_brought (brought : Brought w s done) (kept : w.index = some index) :
    Brought { w with indexDue := false } (w.board.written s indexKey (.ofStrings index.names)) done := by
  have names : index.names = (agentsAfter done).names := by rw [brought.index index kept, Table.names_keys]
  refine ⟨written_open brought.opened _ _, fun name => ?_, fun id => ?_, ?_, brought.index, fun _ => rfl,
    fun _ => .inl ?_⟩
  · rw [written_holds, if_neg (agentKey_ne_indexKey name)]
    exact brought.agents name
  · rw [written_holds, if_neg (swapKey_ne_indexKey id)]
    exact brought.records id
  · exact written_owns brought.owns _ _ (.inr (.inr rfl))
  · rw [ListsNames, written_holds, if_pos rfl, names]

/-- What is shown of agents and sessions after an agent was put on the board. -/
theorem put_depicts {agents : Table Registration} (depicts : w.board.Depicts s agents) (a : Registration) :
    w.board.Depicts (w.board.written s (agentKey a.name) a.encode) (agents.insert a.name a) := by
  intro name
  simp only [written_holds, Table.get?_insert, agentKey_eq_iff]
  split
  · rfl
  · exact depicts name

theorem remove_depicts {agents : Table Registration} (depicts : w.board.Depicts s agents) (gone : String) :
    w.board.Depicts (w.board.cleared s (agentKey gone)) (agents.erase gone) := by
  intro name
  simp only [cleared_holds, Table.get?_erase, agentKey_eq_iff]
  split
  · rfl
  · exact depicts name

theorem session_records {records : Table Session} (recorded : w.board.Records s records) (x : Session) :
    w.board.Records (w.board.written s (swapKey x.id) x.encode) (records.insert x.id x) := by
  intro id
  simp only [written_holds, Table.get?_insert, swapKey_eq_iff]
  split
  · rfl
  · exact recorded id

theorem put_brought (brought : Brought w s done) (kept : w.index = some index) (calm : w.indexDue = false)
    (a : Registration) :
    Brought (w.apply index s (.putAgent a)).1 (w.apply index s (.putAgent a)).2 (done ++ [.putAgent a]) := by
  obtain rfl := brought.index index kept
  have records : w.board.Records (w.board.written s (agentKey a.name) a.encode)
      (recordsAfter (done ++ [.putAgent a])) := by
    intro id
    rw [written_holds, if_neg (swapKey_ne_agentKey id a.name), recordsAfter_snoc]
    exact brought.records id
  have agents := put_depicts brought.agents a
  have owns := written_owns brought.owns (agentKey a.name) a.encode (.inl ⟨a.name, rfl⟩)
  simp only [apply, setJson_open brought.opened]
  split
  · rename_i known
    have known' : (agentsAfter done).contains a.name = true := Table.contains_keys.symm.trans known
    have same := Table.keys_insert_known (agentsAfter_ordered done) known' a
    have names : (agentsAfter (done ++ [.putAgent a])).names = (agentsAfter done).names := by
      rw [agentsAfter_snoc, ← Table.names_keys, ← Table.names_keys (agentsAfter done)]
      exact congrArg Table.names same
    refine ⟨written_open brought.opened _ _, agentsAfter_snoc done _ ▸ agents, records, owns, ?_, ?_, ?_⟩
    · intro index there
      rw [kept] at there
      cases there
      rw [agentsAfter_snoc]
      exact same.symm
    · intro unread
      rw [kept] at unread
      cases unread
    · intro _
      left
      rcases brought.listed calm with listed | ⟨_, unput⟩
      · rw [ListsNames, written_holds, if_neg (agentKey_ne_indexKey a.name).symm, names]
        exact listed
      · rw [agentsAfter_unput unput] at known'
        cases known'
  · refine ⟨written_open brought.opened _ _, agentsAfter_snoc done _ ▸ agents, records, owns, ?_, ?_, ?_⟩
    · rintro _ ⟨⟩
      rw [agentsAfter_snoc]
      exact (Table.keys_insert _ a.name a).symm
    · rintro ⟨⟩
    · rintro ⟨⟩

theorem remove_brought (brought : Brought w s done) (kept : w.index = some index) (calm : w.indexDue = false)
    (gone : String) :
    Brought (w.apply index s (.removeAgent gone)).1 (w.apply index s (.removeAgent gone)).2
      (done ++ [.removeAgent gone]) := by
  obtain rfl := brought.index index kept
  have records : w.board.Records (w.board.cleared s (agentKey gone)) (recordsAfter (done ++ [.removeAgent gone])) := by
    intro id
    rw [cleared_holds, if_neg (swapKey_ne_agentKey id gone), recordsAfter_snoc]
    exact brought.records id
  have agents := remove_depicts brought.agents gone
  have owns := cleared_owns brought.owns (agentKey gone)
  simp only [apply, delete_open brought.opened, orSame]
  split
  · refine ⟨cleared_open brought.opened _, agentsAfter_snoc done _ ▸ agents, records, owns, ?_, ?_, ?_⟩
    · rintro _ ⟨⟩
      rw [agentsAfter_snoc]
      exact (Table.keys_erase _ gone).symm
    · rintro ⟨⟩
    · rintro ⟨⟩
  · rename_i unknown
    have absent : (agentsAfter done).get? gone = none := by
      rw [Table.get?_none_iff, ← Table.contains_iff_mem, ← Table.contains_keys]
      exact unknown
    have same : agentsAfter (done ++ [.removeAgent gone]) = agentsAfter done := by
      rw [agentsAfter_snoc]
      exact Table.erase_absent absent
    refine ⟨cleared_open brought.opened _, agentsAfter_snoc done _ ▸ agents, records, owns, ?_, ?_, ?_⟩
    · rw [same]
      exact brought.index
    · exact brought.unread
    · intro _
      rw [same, ListsNames, cleared_holds, if_neg (agentKey_ne_indexKey gone).symm]
      refine listed_snoc brought calm ?_
      rintro _ ⟨⟩

theorem session_brought (brought : Brought w s done) (calm : w.indexDue = false) (x : Session) :
    Brought w (w.board.written s (swapKey x.id) x.encode) (done ++ [.putSession x]) := by
  have same : agentsAfter (done ++ [.putSession x]) = agentsAfter done := agentsAfter_snoc done _
  refine ⟨written_open brought.opened _ _, fun name => ?_, ?_, ?_, same ▸ brought.index, brought.unread, fun _ => ?_⟩
  · rw [same, written_holds, if_neg (swapKey_ne_agentKey x.id name).symm]
    exact brought.agents name
  · rw [recordsAfter_snoc]
    exact session_records brought.records x
  · exact written_owns brought.owns _ _ (.inr (.inl ⟨x.id, rfl⟩))
  · rw [same, ListsNames, written_holds, if_neg (swapKey_ne_indexKey x.id).symm]
    exact listed_snoc brought calm (fun _ same => nomatch same)

theorem mark_brought (brought : Brought w s done) (ticket : Nat) :
    Brought { w with passed := ticket :: w.passed } s (done ++ [.mark ticket]) := by
  have agents : agentsAfter (done ++ [.mark ticket]) = agentsAfter done := agentsAfter_snoc done _
  have records : recordsAfter (done ++ [.mark ticket]) = recordsAfter done := recordsAfter_snoc done _
  refine ⟨brought.opened, agents ▸ brought.agents, records ▸ brought.records, brought.owns, agents ▸ brought.index,
    brought.unread, fun calm => ?_⟩
  rw [agents]
  exact listed_snoc (w := w) brought calm (fun _ same => nomatch same)

theorem apply_brought (brought : Brought w s done) (kept : w.index = some index) (calm : w.indexDue = false)
    (x : BoardWrite) : Brought (w.apply index s x).1 (w.apply index s x).2 (done ++ [x]) := by
  cases x with
  | putAgent a => exact put_brought brought kept calm a
  | removeAgent gone => exact remove_brought brought kept calm gone
  | putSession session =>
    simp only [apply, setJson_open brought.opened, orSame]
    exact session_brought brought calm session
  | mark ticket => exact mark_brought brought ticket

theorem step_brings (brings : Brings w s changes) (stepped : w.step s = some (w', s')) :
    w'.board = w.board ∧ Brings w' s' changes := by
  obtain ⟨done, rfl, brought⟩ := brings
  unfold step at stepped
  split at stepped
  · rename_i unread
    cases stepped
    exact ⟨rfl, done, rfl, read_brought brought unread⟩
  · rename_i index kept
    split at stepped
    · rw [setJson_open brought.opened] at stepped
      cases stepped
      exact ⟨rfl, done, rfl, due_brought brought kept⟩
    · rename_i notDue
      split at stepped
      · cases stepped
      · rename_i x rest queued
        have calm : w.indexDue = false := by simpa using notDue
        have ready : Brought { w with queue := rest } s done :=
          ⟨brought.opened, brought.agents, brought.records, brought.owns, brought.index, brought.unread, brought.listed⟩
        have kept' : ({ w with queue := rest } : BoardWriter).index = some index := kept
        have applied := apply_applied brought.opened kept' x
        have after := apply_brought ready kept' calm x
        rw [Option.some.inj stepped] at applied after
        refine ⟨applied.board, done ++ [x], ?_, after⟩
        rw [applied.queue, queued, List.append_assoc]
        rfl

theorem steps_bring (brings : Brings w s changes) (many : Nat) :
    (steps many w s).1.board = w.board ∧ Brings (steps many w s).1 (steps many w s).2 changes := by
  induction many generalizing w s with
  | zero => exact ⟨rfl, brings⟩
  | succ many ih =>
    unfold steps
    split
    · exact ⟨rfl, brings⟩
    · rename_i w' s' stepped
      obtain ⟨board, brings'⟩ := step_brings brings stepped
      rw [← board]
      exact ih brings'

theorem submit_brings (brings : Brings w s changes) (more : List BoardWrite) :
    Brings (w.submit more) s (changes ++ more) := by
  obtain ⟨done, rfl, brought⟩ := brings
  exact ⟨done, List.append_assoc .., brought.opened, brought.agents, brought.records, brought.owns, brought.index,
    brought.unread, brought.listed⟩

/-! ## Catching up -/

/-- The most steps that the writer still has to do. -/
def stepsLeft (w : BoardWriter) : Nat :=
  2 * w.queue.length + (if w.indexDue then 1 else 0) + (if w.index.isNone then 1 else 0)

theorem apply_queue (w : BoardWriter) (index : Table Unit) (s : Store) (x : BoardWrite) :
    (w.apply index s x).1.queue = w.queue ∧ (w.index.isSome = true → (w.apply index s x).1.index.isSome = true) := by
  cases x with
  | putAgent a =>
    simp only [apply]
    split
    · exact ⟨rfl, id⟩
    · split
      · exact ⟨rfl, id⟩
      · exact ⟨rfl, fun _ => rfl⟩
  | removeAgent gone =>
    simp only [apply]
    split
    · exact ⟨rfl, fun _ => rfl⟩
    · exact ⟨rfl, id⟩
  | putSession | mark => exact ⟨rfl, id⟩

theorem step_queue (stepped : w.step s = some (w', s')) : w'.queue <:+ w.queue := by
  unfold step at stepped
  split at stepped
  · cases stepped
    exact List.suffix_refl _
  · rename_i index _
    split at stepped
    · cases stepped
      exact List.suffix_refl _
    · split at stepped
      · cases stepped
      · rename_i x rest queued
        have queue := (apply_queue { w with queue := rest } index s x).1
        rw [Option.some.inj stepped] at queue
        rw [queue, queued]
        exact List.suffix_cons x rest

theorem step_left (stepped : w.step s = some (w', s')) : w'.stepsLeft < w.stepsLeft := by
  unfold step at stepped
  split at stepped
  · rename_i unread
    cases stepped
    simp [stepsLeft, unread]
  · rename_i index kept
    split at stepped
    · rename_i due
      cases stepped
      simp [stepsLeft, due]
    · rename_i notDue
      split at stepped
      · cases stepped
      · rename_i x rest queued
        obtain ⟨queue, known⟩ := apply_queue { w with queue := rest } index s x
        rw [Option.some.inj stepped] at queue known
        have length : w'.queue.length = rest.length := congrArg List.length queue
        have kept' : w'.index.isSome = true := known (by simp [kept])
        have unread : w'.index.isNone = false := by simpa using kept'
        have due : (if w'.indexDue then 1 else 0) ≤ 1 := by split <;> simp
        simp only [stepsLeft, length, unread, queued, List.length_cons, Bool.false_eq_true, if_false]
        omega

theorem step_of_left (idle : w.stepsLeft = 0) (s : Store) : w.step s = none := by
  have calm : w.indexDue = false := by
    cases due : w.indexDue
    · rfl
    · simp [stepsLeft, due] at idle
  cases kept : w.index with
  | none => simp [stepsLeft, kept] at idle
  | some index =>
    cases queued : w.queue with
    | nil => simp [step, kept, calm, queued]
    | cons x rest => simp [stepsLeft, queued] at idle

theorem steps_rest {many : Nat} (enough : w.stepsLeft ≤ many) :
    (steps many w s).1.step (steps many w s).2 = none := by
  induction many generalizing w s with
  | zero => exact step_of_left (Nat.le_zero.mp enough) s
  | succ many ih =>
    unfold steps
    split
    · assumption
    · rename_i w' s' stepped
      have fewer := step_left stepped
      exact ih (by omega)

theorem catchUp_rests (w : BoardWriter) (s : Store) : (w.catchUp s).1.step (w.catchUp s).2 = none := by
  apply steps_rest
  unfold stepsLeft
  split <;> split <;> omega

theorem rest_queue (rests : w.step s = none) : w.queue = [] ∧ w.indexDue = false := by
  unfold step at rests
  split at rests
  · cases rests
  split at rests
  · cases rests
  split at rests
  · rename_i notDue _ queued
    exact ⟨queued, by simpa using notDue⟩
  · cases rests

/-- A writer that has caught up has brought all its changes to the board, and the list of names with them. -/
theorem catchUp_brings (brings : Brings w s changes) :
    (w.catchUp s).1.board = w.board ∧ Brought (w.catchUp s).1 (w.catchUp s).2 changes ∧
      (w.catchUp s).1.queue = [] ∧ (w.catchUp s).1.indexDue = false := by
  obtain ⟨board, done, all, brought⟩ := steps_bring brings (2 * w.queue.length + 2)
  obtain ⟨queue, calm⟩ := rest_queue (catchUp_rests w s)
  have same : (steps (2 * w.queue.length + 2) w s).1.queue = [] := queue
  rw [same, List.append_nil] at all
  exact ⟨board, all ▸ brought, queue, calm⟩

end BoardWriter
end Handover
