import Handover.Coordinator
import Handover.Proofs.Registry

/-!
# The steps of a recovery

A recovery waits for the store and for the registry, and both may be changed meanwhile. `Recovery` says where it has got
to and what it does next; left alone it comes to the end that `Coordinator.recover` describes: `start_recovers`.
-/

namespace Handover

/-- What a recovery does next. -/
inductive Recovery.Stage where
  /-- It reads the list of names. -/
  | opening
  /-- It looks whether the first of the names is registered, and has entered so many agents. -/
  | seeking (names : List String) (count : Nat)
  /-- It reads the entry of a name that was not. -/
  | reading (name : String) (rest : List String) (count : Nat)
  /-- It enters the agent that it has read. -/
  | entering (a : Registration) (rest : List String) (count : Nat)

inductive Recovery where
  | going (board : Blackboard) (stage : Recovery.Stage)
  | ended (result : Except Error Nat)

namespace Recovery

def start (c : Coordinator) : Recovery :=
  match c.board with
  | none => .ended (.error (.validation "no blackboard configured"))
  | some board => .going board .opening

/-- Goes on with the store and the registry as they are now. -/
def step (s : Store) (r : Registry) : Recovery → Recovery × Registry
  | .ended result => (.ended result, r)
  | .going board .opening =>
    match board.getJson (Decode.list Decode.text) s Blackboard.indexKey with
    | .error e => (.ended (.error e), r)
    | .ok names => (.going board (.seeking (names.getD []) 0), r)
  | .going _ (.seeking [] count) => (.ended (.ok count), r)
  | .going board (.seeking (name :: rest) count) =>
    (.going board (if r.contains name then .seeking rest count else .reading name rest count), r)
  | .going board (.reading name rest count) =>
    match board.getJson Registration.decode s (Blackboard.agentKey name) with
    | .ok (some a) => (.going board (.entering a rest count), r)
    | .ok none | .error _ => (.going board (.seeking rest count), r)
  | .going board (.entering a rest count) =>
    match r.restore a with
    | .ok registry => (.going board (.seeking rest (count + 1)), registry)
    | .error e => (.ended (.error e), r)

/-- Alone with a store that stays as it is, the recovery comes from the one place to the other. -/
inductive Leads (s : Store) : Recovery → Registry → Recovery → Registry → Prop where
  | here {x : Recovery} {r : Registry} : Leads s x r x r
  | on {x y : Recovery} {r r' : Registry} (next : Leads s (x.step s r).1 (x.step s r).2 y r') : Leads s x r y r'

variable {s : Store} {r r' : Registry} {x x' : Recovery} {c : Coordinator} {board : Blackboard} {name : String}

/-- A step enters the agent that was read, and leaves the registry alone otherwise. -/
theorem step_registry (stepped : x.step s r = (x', r')) :
    r' = r ∨ ∃ board a rest count, x = .going board (.entering a rest count) ∧ r.restore a = .ok r' := by
  unfold step at stepped
  split at stepped
  · cases stepped
    exact .inl rfl
  · split at stepped <;> cases stepped <;> exact .inl rfl
  · cases stepped
    exact .inl rfl
  · cases stepped
    exact .inl rfl
  · split at stepped <;> cases stepped <;> exact .inl rfl
  · split at stepped
    · rename_i entered
      cases stepped
      exact .inr ⟨_, _, _, _, rfl, entered⟩
    · cases stepped
      exact .inl rfl

theorem seeking_recovers (board : Blackboard) (s : Store) (names : List String) (count : Nat) (c : Coordinator) :
    ∃ registry, (Coordinator.recoverNames board s names count c).2 = { c with registry } ∧
      Leads s (.going board (.seeking names count)) c.registry
        (.ended (Coordinator.recoverNames board s names count c).1) registry := by
  induction names generalizing count c with
  | nil => exact ⟨c.registry, rfl, .on .here⟩
  | cons name rest ih =>
    unfold Coordinator.recoverNames
    split
    · rename_i had
      obtain ⟨registry, same, leads⟩ := ih count c
      refine ⟨registry, same, .on ?_⟩
      rw [step, if_pos had]
      exact leads
    · rename_i absent
      -- The entry is read at the second step, and entered at the third one if there is one.
      have seeks : ∀ y registry, Leads s (.going board (.reading name rest count)) c.registry y registry →
          Leads s (.going board (.seeking (name :: rest) count)) c.registry y registry := by
        intro y registry leads
        refine .on ?_
        rw [step, if_neg absent]
        exact leads
      split
      · rename_i a read
        have reads : step s c.registry (.going board (.reading name rest count)) =
            (.going board (.entering a rest count), c.registry) := by rw [step, read]
        split
        · rename_i entered restored
          obtain ⟨registry, same, leads⟩ := ih (count + 1) { c with registry := entered }
          refine ⟨registry, same, seeks _ _ (.on ?_)⟩
          rw [reads]
          refine .on ?_
          rw [step, restored]
          exact leads
        · rename_i e refused
          refine ⟨c.registry, rfl, seeks _ _ (.on ?_)⟩
          rw [reads]
          refine .on ?_
          rw [step, refused]
          exact .here
      all_goals
        rename_i unread
        obtain ⟨registry, same, leads⟩ := ih count c
        refine ⟨registry, same, seeks _ _ (.on ?_)⟩
        rw [step, unread]
        exact leads

/-- Left alone, a recovery ends as the coordinator's does, which changes nothing but the registry. -/
theorem start_recovers (c : Coordinator) (s : Store) :
    ∃ registry, (c.recover s).2 = { c with registry } ∧
      Leads s (start c) c.registry (.ended (c.recover s).1) registry := by
  unfold Coordinator.recover
  split
  · rename_i absent
    have starts : start c = .ended (.error (.validation "no blackboard configured")) := by rw [start, absent]
    exact ⟨c.registry, rfl, starts ▸ .here⟩
  · rename_i board there
    have starts : start c = .going board .opening := by rw [start, there]
    split
    · rename_i e unread
      refine ⟨c.registry, rfl, starts ▸ .on ?_⟩
      rw [step, unread]
      exact .here
    · rename_i names read
      obtain ⟨registry, same, leads⟩ := seeking_recovers board s (names.getD []) 0 c
      refine ⟨registry, same, starts ▸ .on ?_⟩
      rw [step, read]
      exact leads

end Recovery
end Handover
