import Handover.Coordinator
import Handover.Proofs.Table

/-!
# What a coordinator keeps of its sessions

A record that is stored is found under its id, unless there are too many and it is one of those dropped. Only records
of sessions that have ended are dropped: `prune_keeps`. Operations on agents announce nothing.
-/

namespace Handover

theorem ok_of_bind {α β : Type} {x : Except Error α} {f : α → Except Error β} {b : β} (done : (x >>= f) = .ok b) :
    ∃ a, x = .ok a ∧ f a = .ok b := by
  cases x with
  | error e => cases done
  | ok a => exact ⟨a, rfl, done⟩

theorem ok_of_map {α β : Type} {x : Except Error α} {f : α → β} {b : β} (done : x.map f = .ok b) :
    ∃ a, x = .ok a ∧ f a = b := by
  cases x with
  | error e => cases done
  | ok a => exact ⟨a, rfl, Except.ok.inj done⟩

namespace Coordinator
variable {c c' : Coordinator} {s : Session} {most : Nat} {sessions : Table Session} {id : String}

theorem get?_foldl_erase (ended : List Session) (sessions : Table Session) (id : String) :
    (ended.foldl (fun t s => t.erase s.id) sessions).get? id =
      if id ∈ ended.map (·.id) then none else sessions.get? id := by
  induction ended generalizing sessions with
  | nil => simp
  | cons x rest ih =>
    rw [List.foldl_cons, ih, Table.get?_erase]
    by_cases same : id = x.id
    · simp [same]
    · simp [same]

theorem prune_short (short : sessions.length ≤ most) : prune most sessions = sessions := by
  have none : sessions.length - most = 0 := Nat.sub_eq_zero_of_le short
  simp [prune, none]

theorem get?_prune (most : Nat) (sessions : Table Session) (id : String) :
    (prune most sessions).get? id = sessions.get? id ∨
      ((prune most sessions).get? id = none ∧ most < sessions.length) := by
  by_cases short : sessions.length ≤ most
  · exact .inl (by rw [prune_short short])
  · have long : most < sessions.length := Nat.lt_of_not_le short
    simp only [prune, get?_foldl_erase]
    split
    · exact .inr ⟨rfl, long⟩
    · exact .inl rfl

theorem storeSession_get? (c : Coordinator) (s : Session) :
    (c.storeSession s).sessions.get? s.id = some s ∨
      ((c.storeSession s).sessions.get? s.id = none ∧ c.maxSessions < (c.sessions.insert s.id s).length) := by
  have stored := get?_prune c.maxSessions (c.sessions.insert s.id s) s.id
  rw [Table.get?_insert_self] at stored
  exact stored

theorem prune_ordered (ordered : sessions.Ordered) (most : Nat) : (prune most sessions).Ordered := by
  unfold prune
  dsimp only
  generalize ((sessions.values.filter Session.isTerminal).mergeSort dropsBefore).take (sessions.length - most) = ended
  induction ended generalizing sessions with
  | nil => exact ordered
  | cons x rest ih => exact ih (Table.ordered_erase ordered x.id)

/-- The record of a session that goes on stays, whatever else is dropped. -/
theorem prune_keeps (ordered : sessions.Ordered) (keyed : ∀ id x, sessions.get? id = some x → x.id = id)
    (there : sessions.get? id = some s) (live : s.isTerminal = false) (most : Nat) :
    (prune most sessions).get? id = some s := by
  simp only [prune, get?_foldl_erase]
  rw [if_neg, there]
  intro dropped
  obtain ⟨x, taken, same⟩ := List.mem_map.mp dropped
  obtain ⟨inside, ended⟩ := List.mem_filter.mp (List.mem_mergeSort.mp (List.mem_of_mem_take taken))
  obtain ⟨⟨key, _⟩, entry, rfl⟩ := List.mem_map.mp inside
  have found := Table.get?_of_mem ordered entry
  have own : key = id := (keyed key _ found).symm.trans same
  rw [own, there] at found
  cases found
  exact nomatch live.symm.trans ended

/-! ## Operations on agents -/

variable {ctx : Context} {a : Registration} {around : Surroundings} {name : String} {now : Instant} {state : AgentState}

theorem register_events (done : c.register ctx a around = .ok c') : c'.events = c.events := by
  obtain ⟨_, _, done⟩ := ok_of_bind done
  obtain ⟨_, _, ⟨⟩⟩ := ok_of_bind done
  rfl

theorem unregister_events (done : c.unregister ctx name around = .ok c') : c'.events = c.events := by
  obtain ⟨_, _, ⟨⟩⟩ := ok_of_bind done
  rfl

theorem heartbeat_events (done : c.heartbeat name now = .ok (a, c')) : c'.events = c.events := by
  obtain ⟨_, _, ⟨⟩⟩ := ok_of_bind done
  rfl

theorem updateState_events (done : c.updateState name state = .ok c') : c'.events = c.events := by
  obtain ⟨_, _, ⟨⟩⟩ := ok_of_bind done
  rfl

end Coordinator
end Handover
