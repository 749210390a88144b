import Handover.Proofs.Call
import Handover.Proofs.Recovery

/-!
# What a recovery adds

If every agent that is listed and not registered stands on the board under its own name, a recovery adds just those
that can be read, leaves the others alone and counts what it added: `recover_adds`. An entry under another agent's
name is put in the place of that agent: `stray_entry_replaces`.
-/

namespace Handover

/-- The agent that the board shows under a name, if there is one that can be read. -/
def Blackboard.agent? (b : Blackboard) (s : Store) (name : String) : Option Registration :=
  match b.getJson Registration.decode s (agentKey name) with
  | .ok found => found
  | .error _ => none

theorem Blackboard.agent?_eq_some {b : Blackboard} {s : Store} {name : String} {a : Registration} :
    b.agent? s name = some a ↔ b.Shows s Registration.decode (agentKey name) a := by
  unfold agent? Shows
  split <;> rename_i read <;> simp [read]

namespace Coordinator
variable {b : Blackboard} {s : Store} {c c' c₁ : Coordinator} {n name : String} {names : List String}
  {a : Registration} {listed : Option (List String)} {many : Nat}

/-- The agents that a recovery would enter stand under their own names, and have one. -/
def WellFiled (b : Blackboard) (s : Store) (names : List String) (c : Coordinator) : Prop :=
  ∀ name ∈ names, c.registry.contains name = false → ∀ a, b.agent? s name = some a → a.name = name ∧ name ≠ ""

/-- From `c` to `c'` the agents under these names were added that the board shows, and nothing else was done. -/
structure Adds (b : Blackboard) (s : Store) (names : List String) (c : Coordinator) (many : Nat) (c' : Coordinator) :
    Prop where
  rest : c' = { c with registry := c'.registry }
  agents : ∀ name, c'.registry.agents.get? name =
    (c.registry.agents.get? name).or (if name ∈ names then b.agent? s name else none)
  added : ∃ news, c'.registry.agents.names.Perm (news ++ c.registry.agents.names) ∧ news.length = many ∧
    ∀ name ∈ news, c.registry.contains name = false
  ordered : c.registry.agents.Ordered → c'.registry.agents.Ordered
  writes : ∃ more, c'.registry.writes = c.registry.writes ++ more ∧
    ∀ x ∈ more, ∃ a, x = .putAgent a ∧ a.name ∈ names

theorem adds_nothing (b : Blackboard) (s : Store) (c : Coordinator) : Adds b s [] c 0 c := by
  refine ⟨rfl, fun name => ?_, ⟨[], .refl _, rfl, nofun⟩, fun ordered => ordered, [], ?_,
    fun _ there => nomatch there⟩
  · simp
  · exact (List.append_nil _).symm

/-- A name that is registered or that the board shows nothing under makes no difference. -/
theorem Adds.skip (adds : Adds b s names c many c')
    (idle : c.registry.contains n = true ∨ b.agent? s n = none) : Adds b s (n :: names) c many c' := by
  obtain ⟨more, writes, puts⟩ := adds.writes
  refine ⟨adds.rest, fun name => ?_, adds.added, adds.ordered, more, writes, fun x there => ?_⟩
  · rw [adds.agents]
    by_cases same : name = n
    · subst same
      rcases idle with had | unread
      · obtain ⟨a, found⟩ : ∃ a, c.registry.agents.get? name = some a := Option.isSome_iff_exists.mp had
        simp [found]
      · simp [unread]
    · simp [same]
  · obtain ⟨a, put, listed⟩ := puts x there
    exact ⟨a, put, .tail _ listed⟩

theorem Adds.enter (absent : c.registry.contains n = false) (own : a.name = n) (shown : b.agent? s n = some a)
    (adds : Adds b s names { c with registry := c.registry.store a } many c') :
    Adds b s (n :: names) c (many + 1) c' := by
  have unknown : c.registry.agents.get? n = none := by simpa [Registry.contains, Table.contains] using absent
  obtain ⟨news, perm, length, fresh⟩ := adds.added
  have entered : (c.registry.store a).agents = c.registry.agents.insert n a := own ▸ rfl
  obtain ⟨more, writes, puts⟩ := adds.writes
  refine ⟨adds.rest, fun name => ?_, ⟨news ++ [n], ?_, ?_, fun name there => ?_⟩,
    fun ordered => adds.ordered (entered ▸ Table.ordered_insert ordered n a), .putAgent a :: more, ?_, fun x there => ?_⟩
  · rw [adds.agents]
    simp only [entered, Table.get?_insert]
    by_cases same : name = n
    · simp [same, unknown, shown]
    · simp [same]
  · rw [List.append_assoc]
    refine perm.trans (.append_left _ ?_)
    simp only [entered]
    exact Table.names_insert_perm unknown a
  · rw [List.length_append, length]
    rfl
  · rcases List.mem_append.mp there with later | this
    · have unknown' := fresh name later
      simp only [Registry.contains, entered, Table.contains_insert, Bool.or_eq_false_iff] at unknown'
      exact unknown'.2
    · rw [List.mem_singleton.mp this]
      exact absent
  · rw [writes]
    exact List.append_assoc ..
  · rcases List.mem_cons.mp there with rfl | later
    · exact ⟨a, rfl, own ▸ .head _⟩
    · obtain ⟨a', put, listed⟩ := puts x later
      exact ⟨a', put, .tail _ listed⟩

theorem WellFiled.entered (wellFiled : WellFiled b s (n :: names) c) (own : a.name = n) :
    WellFiled b s names { c with registry := c.registry.store a } := by
  intro name there absent a' shown
  have entered : (c.registry.store a).agents = c.registry.agents.insert n a := own ▸ rfl
  simp only [Registry.contains, entered, Table.contains_insert, Bool.or_eq_false_iff] at absent
  exact wellFiled name (.tail _ there) absent.2 a' shown

theorem recoverNames_adds (wellFiled : WellFiled b s names c) (count : Nat) :
    ∃ many c', recoverNames b s names count c = (.ok (count + many), c') ∧ Adds b s names c many c' := by
  induction names generalizing count c with
  | nil => exact ⟨0, c, rfl, adds_nothing b s c⟩
  | cons n rest ih =>
    unfold recoverNames
    split
    · rename_i had
      obtain ⟨many, c', ends, adds⟩ := ih (fun name there => wellFiled name (.tail _ there)) count
      exact ⟨many, c', ends, adds.skip (.inl had)⟩
    · rename_i absent
      have absent : c.registry.contains n = false := by simpa using absent
      split
      · rename_i a read
        have shown : b.agent? s n = some a := by simp only [Blackboard.agent?, read]
        obtain ⟨own, named⟩ := wellFiled n (.head _) absent a shown
        rw [Registry.restore_eq _ _ (own ▸ named)]
        obtain ⟨many, c', ends, adds⟩ := ih (wellFiled.entered own) (count + 1)
        refine ⟨many + 1, c', ends.trans ?_, adds.enter absent own shown⟩
        rw [Nat.add_assoc, Nat.add_comm 1]
      all_goals
        rename_i read
        have unread : b.agent? s n = none := by simp only [Blackboard.agent?, read]
        obtain ⟨many, c', ends, adds⟩ := ih (fun name there => wellFiled name (.tail _ there)) count
        exact ⟨many, c', ends, adds.skip (.inr unread)⟩

/-- If every listed name is registered or shows nothing that can be read, a recovery does nothing. -/
theorem recoverNames_idle (idle : ∀ name ∈ names, c.registry.contains name = true ∨ b.agent? s name = none)
    (count : Nat) : recoverNames b s names count c = (.ok count, c) := by
  induction names with
  | nil => rfl
  | cons n rest ih =>
    have later := ih fun name there => idle name (.tail _ there)
    unfold recoverNames
    rcases idle n (.head _) with had | unread
    · rw [if_pos had, later]
    · split
      · exact later
      · unfold Blackboard.agent? at unread
        split <;> simp_all

theorem Adds.idle (adds : Adds b s names c many c') :
    ∀ name ∈ names, c'.registry.contains name = true ∨ b.agent? s name = none := by
  intro name there
  have found := adds.agents name
  rw [if_pos there] at found
  cases shown : b.agent? s name with
  | none => exact .inr rfl
  | some a =>
    left
    rw [Registry.contains, Table.contains, found, shown]
    cases c.registry.agents.get? name <;> rfl

/-- How many of the names that are registered now were not before. -/
theorem Adds.count (adds : Adds b s names c many c') :
    c'.registry.agents.names.countP (fun name => !c.registry.contains name) = many := by
  obtain ⟨news, perm, length, fresh⟩ := adds.added
  rw [perm.countP_eq, List.countP_append, ← length]
  have all : news.countP (fun name => !c.registry.contains name) = news.length :=
    List.countP_eq_length.mpr fun name there => by simp [fresh name there]
  have none : c.registry.agents.names.countP (fun name => !c.registry.contains name) = 0 :=
    List.countP_eq_zero.mpr fun name there => by simp [Registry.contains, Table.contains_iff_mem.mpr there]
  rw [all, none, Nat.add_zero]

/-- A recovery whose entries stand under their own names enters those it can read of the agents it lacks, passes over
the others, and says how many. Done again it finds nothing to do. -/
theorem recover_adds (board : c.board = some b)
    (read : b.getJson (Decode.list Decode.text) s Blackboard.indexKey = .ok listed)
    (wellFiled : WellFiled b s (listed.getD []) c) :
    ∃ many c', c.recover s = (.ok many, c') ∧
      (∀ name a, c.registry.agents.get? name = some a → c'.registry.agents.get? name = some a) ∧
      (∀ name, c.registry.agents.get? name = none →
        c'.registry.agents.get? name = if name ∈ listed.getD [] then b.agent? s name else none) ∧
      c'.registry.agents.names.countP (fun name => !c.registry.contains name) = many ∧
      c'.recover s = (.ok 0, c') := by
  obtain ⟨many, c', ends, adds⟩ := recoverNames_adds wellFiled 0
  have again : c'.board = some b := by
    rw [adds.rest]
    exact board
  refine ⟨many, c', ?_, fun name a had => ?_, fun name absent => ?_, adds.count, ?_⟩
  · simp only [recover, board, read]
    rw [ends, Nat.zero_add]
  · rw [adds.agents, had]
    rfl
  · rw [adds.agents, absent]
    rfl
  · simp only [recover, again, read]
    exact recoverNames_idle adds.idle 0

end Coordinator

namespace Sample

/-- A store with one agent, the elder, under some name, and with these names listed. -/
def posted (name : String) (listed : List String) : Store :=
  ({} : Blackboard).written (({} : Blackboard).written {} (Blackboard.agentKey name) elder.encode) Blackboard.indexKey
    (.ofStrings listed)

/-- A coordinator with one agent of its own. -/
def staffed (a : Registration) : Coordinator := { registry := ({} : Registry).store a, board := some {} }

set_option maxRecDepth 4000 in
theorem elder_readsBack : elder.ReadsBack := (Decode.ofText_render rfl).trans rfl

theorem posted_listed (name : String) (listed : List String) :
    ({} : Blackboard).Shows (posted name listed) (Decode.list Decode.text) Blackboard.indexKey listed := by
  have opened : ({} : Store).Open := rfl
  exact Blackboard.written_shows (Blackboard.written_open opened _ _) _ (Decode.ofText_strings listed)

theorem posted_agent? (name : String) (listed : List String) :
    ({} : Blackboard).agent? (posted name listed) name = some elder := by
  have opened : ({} : Store).Open := rfl
  refine Blackboard.agent?_eq_some.mpr ?_
  rw [posted, Blackboard.written_elsewhere (Blackboard.written_open opened _ _) _ _
    (Blackboard.agentKey_ne_indexKey name).symm]
  exact Blackboard.written_shows opened _ elder_readsBack

def third : Registration := .new "third" "worker" ⟨0, 0⟩

def fourNames : List String := ["elder", "third", "ghost", "elder"]

end Sample

namespace Coordinator

/-- Of the four listed names one is registered, one shows nothing and one comes twice. -/
theorem recover_adds_of_four_names :
    ∃ many c', (Sample.staffed Sample.third).recover (Sample.posted "elder" Sample.fourNames) = (.ok many, c') ∧
      c'.registry.agents.get? "third" = some Sample.third ∧ c'.registry.agents.get? "elder" = some Sample.elder ∧
      c'.registry.agents.get? "ghost" = none ∧
      c'.recover (Sample.posted "elder" Sample.fourNames) = (.ok 0, c') := by
  have listed := Sample.posted_listed "elder" Sample.fourNames
  have elder := Sample.posted_agent? "elder" Sample.fourNames
  have ghost : ({} : Blackboard).agent? (Sample.posted "elder" Sample.fourNames) "ghost" = none := rfl
  have wellFiled : WellFiled {} (Sample.posted "elder" Sample.fourNames) Sample.fourNames
      (Sample.staffed Sample.third) := by
    intro name there absent a shown
    simp only [Sample.fourNames, List.mem_cons, List.not_mem_nil, or_false] at there
    rcases there with rfl | rfl | rfl | rfl
    · cases elder.symm.trans shown
      exact ⟨rfl, by decide⟩
    · exact nomatch absent
    · exact nomatch ghost.symm.trans shown
    · cases elder.symm.trans shown
      exact ⟨rfl, by decide⟩
  obtain ⟨many, c', ends, kept, added, _, again⟩ := recover_adds rfl listed wellFiled
  have found := (added "elder" rfl).trans ((if_pos (by decide)).trans elder)
  have missing := (added "ghost" rfl).trans ((if_pos (by decide)).trans ghost)
  exact ⟨many, c', ends, kept _ _ rfl, found, missing, again⟩

/-- The entry of a listed name is of another agent, which is registered: the recovery counts one, the name is not
registered after it, and the agent that was has lost what it worked with. Every further recovery does the same. -/
theorem stray_entry_replaces :
    ∃ c' c'', ({} : Blackboard).Shows (Sample.posted "ghost" ["ghost"]) (Decode.list Decode.text) Blackboard.indexKey
        ["ghost"] ∧
      (Sample.staffed Sample.worker).recover (Sample.posted "ghost" ["ghost"]) = (.ok 1, c') ∧
      (Sample.staffed Sample.worker).registry.agents.get? "elder" = some Sample.worker ∧
      c'.registry.agents.get? "elder" = some Sample.elder ∧ Sample.elder ≠ Sample.worker ∧
      c'.registry.contains "ghost" = false ∧
      c'.recover (Sample.posted "ghost" ["ghost"]) = (.ok 1, c'') := by
  have listed := Sample.posted_listed "ghost" ["ghost"]
  have shown := Blackboard.agent?_eq_some.mp (Sample.posted_agent? "ghost" ["ghost"])
  have read : ({} : Blackboard).getJson Registration.decode (Sample.posted "ghost" ["ghost"])
      (Blackboard.agentKey "ghost") = .ok (some Sample.elder) := shown
  have read' : ({} : Blackboard).getJson (Decode.list Decode.text) (Sample.posted "ghost" ["ghost"])
      Blackboard.indexKey = .ok (some ["ghost"]) := listed
  have once : ∀ c : Coordinator, c.board = some {} → c.registry.contains "ghost" = false →
      c.recover (Sample.posted "ghost" ["ghost"]) = (.ok 1, { c with registry := c.registry.store Sample.elder }) := by
    intro c board absent
    simp [recover, board, read', recoverNames, absent, read, Registry.restore_eq c.registry Sample.elder (by decide)]
  have differ : Sample.elder ≠ Sample.worker := fun same =>
    absurd (congrArg (·.state.memory.isEmpty) same) (by decide)
  exact ⟨_, _, listed, once _ rfl rfl, rfl, rfl, differ, rfl, once _ rfl rfl⟩

end Coordinator
end Handover
