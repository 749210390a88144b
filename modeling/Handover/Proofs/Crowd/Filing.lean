import Handover.Proofs.Crowd
import Handover.Proofs.Swap.Filing
import Handover.Proofs.Table

/-!
# The records of calls side by side

Of every swap that has started there is a last record. While the swap goes on, and as long as it is not dropped after
that, the coordinator has it; it is the one with which the swap ended, if it has: `OnFile`.
-/

namespace Handover

namespace Crowd
variable {crowd crowd' : Crowd} {i j : Nat} {m n : Member} {s s' : Swap} {c c' : Coordinator} {x : Session}
  {records : Table Session} {id : String} {swap : Except Error Swap} {b : Beat}

/-- The call in this place has come to this swap. -/
def Runs (crowd : Crowd) (i : Nat) (m : Member) (s : Swap) : Prop := crowd.Has i m ∧ m.swap = some (.ok s)

/-- A swap under this id has kept its first record. -/
def Started (crowd : Crowd) (id : String) : Prop :=
  ∃ i m s, crowd.Runs i m s ∧ s.phase ≠ .opening ∧ m.order.session = id

/-- No other call is to have the same id. -/
def Sole (crowd : Crowd) (i : Nat) (m : Member) : Prop :=
  ∀ j n, j ≠ i → crowd.Has j n → n.order.session ≠ m.order.session

/-- These are the last records of all swaps that have started. -/
structure OnFile (crowd : Crowd) (records : Table Session) : Prop where
  filed : crowd.coordinator.Filed
  kept : ∀ id x, crowd.coordinator.sessions.get? id = some x → records.get? id = some x
  own : ∀ i m s, crowd.Runs i m s → s.session.id = m.order.session
  started : ∀ id, records.contains id = true ↔ crowd.Started id
  running : ∀ i m s, crowd.Runs i m s → s.phase ≠ .opening → s.phase ≠ .finished → crowd.Sole i m →
    ∃ x, crowd.coordinator.sessions.get? m.order.session = some x ∧ x.isTerminal = false
  ended : ∀ i m s, crowd.Runs i m s → s.phase = .finished → crowd.Sole i m →
    records.get? m.order.session = some s.session

theorem put_runs (there : crowd.Has i m) :
    (crowd.put i (m.call swap) c).Runs j n s ↔
      if j = i then n = m.call swap ∧ swap = .ok s else crowd.Runs j n s := by
  constructor
  · rintro ⟨found, begun⟩
    rw [has_put there] at found
    split at found
    · rename_i same
      subst found
      rw [if_pos same]
      exact ⟨rfl, Option.some.inj begun⟩
    · rename_i other
      rw [if_neg other]
      exact ⟨found, begun⟩
  · intro runs
    split at runs
    · rename_i same
      obtain ⟨rfl, rfl⟩ := runs
      subst same
      exact ⟨has_put_self there, rfl⟩
    · rename_i other
      exact ⟨has_put_other there runs.1 other, runs.2⟩

theorem put_sole {n' : Member} (there : crowd.Has i m) (order : n.order = n'.order)
    (sole : (crowd.put i (m.call swap) c).Sole j n) : crowd.Sole j n' := by
  intro k p other found
  rw [← order]
  by_cases same : k = i
  · subst same
    obtain rfl := has_unique there found
    exact sole k (m.call swap) other (has_put_self there)
  · exact sole k p other (has_put_other there found same)

theorem placed_started (there : crowd.Has i m) (fresh : m.swap = none)
    (opening : ∀ s, swap = .ok s → s.phase = .opening) :
    (crowd.put i (m.call swap) c).Started id ↔ crowd.Started id := by
  constructor
  · rintro ⟨j, n, s, runs, begun, own⟩
    rw [put_runs there] at runs
    split at runs
    · exact absurd (opening s runs.2) begun
    · exact ⟨j, n, s, runs, begun, own⟩
  · rintro ⟨j, n, s, runs, begun, own⟩
    have other : j ≠ i := by
      rintro rfl
      obtain rfl := has_unique there runs.1
      exact nomatch fresh.symm.trans runs.2
    exact ⟨j, n, s, (put_runs there).mpr (by rwa [if_neg other]), begun, own⟩

theorem moved_started (there : crowd.Has i m) (begun' : s'.phase ≠ .opening) :
    (crowd.put i (m.call (.ok s')) c).Started id ↔ crowd.Started id ∨ m.order.session = id := by
  have now : (crowd.put i (m.call (.ok s')) c).Runs i (m.call (.ok s')) s' := ⟨has_put_self there, rfl⟩
  constructor
  · rintro ⟨j, n, s, runs, begun, own⟩
    rw [put_runs there] at runs
    split at runs
    · rw [runs.1] at own
      exact .inr own
    · exact .inl ⟨j, n, s, runs, begun, own⟩
  · rintro (⟨j, n, s, runs, begun, own⟩ | own)
    · by_cases same : j = i
      · subst same
        obtain rfl := has_unique there runs.1
        exact ⟨j, _, s', now, begun', own⟩
      · exact ⟨j, n, s, (put_runs there).mpr (by rwa [if_neg same]), begun, own⟩
    · exact ⟨i, _, s', now, begun', own⟩

/-- Nothing is on file before the first call is placed. -/
theorem gather_onFile (orders : List Order) (none : c.sessions = []) : (gather orders c).OnFile [] := by
  have idle : ∀ i m s, ¬ (gather orders c).Runs i m s := by
    rintro i m s ⟨there, begun⟩
    cases (gather_fresh there).1.symm.trans begun
  have empty : ∀ id x, (gather orders c).coordinator.sessions.get? id ≠ some x := by
    intro id x there
    rw [gather, none] at there
    cases there
  refine ⟨⟨none ▸ Table.ordered_nil, fun id x there => absurd there (empty id x)⟩,
    fun id x there => absurd there (empty id x), fun i m s runs => absurd runs (idle i m s), fun id => ⟨fun known => ?_, ?_⟩,
    fun i m s runs => absurd runs (idle i m s), fun i m s runs => absurd runs (idle i m s)⟩
  · cases known
  · rintro ⟨i, m, s, runs, _⟩
    exact absurd runs (idle i m s)

theorem OnFile.of_same (onFile : crowd.OnFile records) (same : c.sessions = crowd.coordinator.sessions) :
    ({ crowd with coordinator := c } : Crowd).OnFile records where
  filed := ⟨same ▸ onFile.filed.ordered, fun id x found => onFile.filed.own id x (same ▸ found)⟩
  kept := fun id x found => onFile.kept id x (same ▸ found)
  own := onFile.own
  started := onFile.started
  running := same ▸ onFile.running
  ended := onFile.ended

theorem placed_onFile (onFile : crowd.OnFile records) (there : crowd.Has i m) (fresh : m.swap = none) :
    (crowd.put i (m.call (m.order.start crowd.coordinator).swap) crowd.coordinator).OnFile records := by
  refine ⟨onFile.filed, onFile.kept, fun j n s runs => ?_, fun id => ?_, fun j n s runs started unended sole => ?_,
    fun j n s runs phase sole => ?_⟩
  · rw [put_runs there] at runs
    split at runs
    · obtain ⟨rfl, begun⟩ := runs
      exact (Call.start_fits begun).1.id
    · exact onFile.own j n s runs
  · rw [placed_started there fresh fun s begun => (Call.start_fits begun).2]
    exact onFile.started id
  · rw [put_runs there] at runs
    split at runs
    · exact absurd (Call.start_fits runs.2).2 started
    · exact onFile.running j n s runs started unended (put_sole there rfl sole)
  · rw [put_runs there] at runs
    split at runs
    · have opening := (Call.start_fits runs.2).2
      rw [phase] at opening
      cases opening
    · exact onFile.ended j n s runs phase (put_sole there rfl sole)

theorem moved_own (onFile : crowd.OnFile records) (there : crowd.Has i m) (begun : m.swap = some (.ok s))
    {around : Surroundings} {heard : Except Error (Option Message)}
    (moves : Swap.Moves s crowd.coordinator around heard s' c') (j : Nat) (n : Member) (t : Swap)
    (runs : (crowd.put i (m.call (.ok s')) c').Runs j n t) : t.session.id = n.order.session := by
  rw [put_runs there] at runs
  split at runs
  · obtain ⟨rfl, ⟨⟩⟩ := runs
    have terms := Swap.moves_terms moves
    simp only [Swap.terms, Session.heading, Prod.mk.injEq] at terms
    exact terms.2.2.2.1.trans (onFile.own i m s ⟨there, begun⟩)
  · exact onFile.own j n t runs

/-- A turn of a call after which the records are the same. -/
theorem altered_onFile (onFile : crowd.OnFile records) (there : crowd.Has i m) (begun : m.swap = some (.ok s))
    {around : Surroundings} {heard : Except Error (Option Message)}
    (moves : Swap.Moves s crowd.coordinator around heard s' c') (alters : crowd.coordinator.Alters c')
    (started : s.phase ≠ .opening) (still : s.phase = .finished ∨ s'.phase = .finished → s' = s) :
    (crowd.put i (m.call (.ok s')) c').OnFile records := by
  have same : (crowd.put i (m.call (.ok s')) c').coordinator.sessions = crowd.coordinator.sessions := alters.sessions
  refine ⟨⟨same ▸ onFile.filed.ordered, same ▸ onFile.filed.own⟩, same ▸ onFile.kept,
    moved_own onFile there begun moves, fun id => ?_, fun j n t runs started' unended sole => ?_,
    fun j n t runs phase sole => ?_⟩
  · rw [moved_started there (Swap.moves_begun moves), onFile.started]
    refine ⟨.inl, fun either => ?_⟩
    rcases either with earlier | own
    · exact earlier
    · exact ⟨i, m, s, ⟨there, begun⟩, started, own⟩
  · rw [same]
    rw [put_runs there] at runs
    split at runs
    · rename_i own
      subst own
      obtain ⟨rfl, ⟨⟩⟩ := runs
      refine onFile.running j m s ⟨there, begun⟩ started (fun done => unended ?_) (put_sole there rfl sole)
      rw [still (.inl done)]
      exact done
    · exact onFile.running j n t runs started' unended (put_sole there rfl sole)
  · rw [put_runs there] at runs
    split at runs
    · rename_i own
      subst own
      obtain ⟨rfl, ⟨⟩⟩ := runs
      obtain rfl := still (.inr phase)
      exact onFile.ended j m s' ⟨there, begun⟩ phase (put_sole there rfl sole)
    · exact onFile.ended j n t runs phase (put_sole there rfl sole)

/-- A turn of a call at which its record is kept. -/
theorem stored_onFile (onFile : crowd.OnFile records) (there : crowd.Has i m) (begun : m.swap = some (.ok s))
    {around : Surroundings} {heard : Except Error (Option Message)}
    (moves : Swap.Moves s crowd.coordinator around heard s' c') (stores : crowd.coordinator.Stores x c')
    (own : x.id = s.session.id)
    (last : s'.phase = .finished ∧ x = s'.session ∨ s'.phase ≠ .finished ∧ x.isTerminal = false) :
    (crowd.put i (m.call (.ok s')) c').OnFile (records.insert x.id x) := by
  have mine : x.id = m.order.session := own.trans (onFile.own i m s ⟨there, begun⟩)
  have others : ∀ j n, j ≠ i → (crowd.put i (m.call (.ok s')) c').Sole j n → n.order.session ≠ x.id := by
    intro j n other sole
    rw [mine]
    exact fun same => sole i (m.call (.ok s')) (Ne.symm other) (has_put_self there) same.symm
  refine ⟨stores.filed onFile.filed, fun id y found => ?_, moved_own onFile there begun moves, fun id => ?_,
    fun j n t runs started unended sole => ?_, fun j n t runs phase sole => ?_⟩
  · have earlier := stores.kept found
    rw [Table.get?_insert] at earlier ⊢
    by_cases same : id = x.id
    · rwa [if_pos same] at earlier ⊢
    · rw [if_neg same] at earlier ⊢
      exact onFile.kept id y earlier
  · rw [moved_started there (Swap.moves_begun moves), Table.contains_insert, ← onFile.started, mine]
    rw [Bool.or_eq_true, decide_eq_true_eq, or_comm, eq_comm (a := id)]
  · rw [put_runs there] at runs
    split at runs
    · obtain ⟨rfl, ⟨⟩⟩ := runs
      rcases last with ⟨done, _⟩ | ⟨_, live⟩
      · exact absurd done unended
      · have named : (m.call (.ok s')).order.session = x.id := mine.symm
        rw [named]
        exact ⟨x, stores.keeps onFile.filed (Table.get?_insert_self _ _ _) live, live⟩
    · rename_i other
      obtain ⟨y, found, live⟩ := onFile.running j n t runs started unended (put_sole there rfl sole)
      refine ⟨y, stores.keeps onFile.filed ?_ live, live⟩
      rwa [Table.get?_insert_of_ne (others j n other sole)]
  · rw [put_runs there] at runs
    split at runs
    · obtain ⟨rfl, ⟨⟩⟩ := runs
      rcases last with ⟨_, same⟩ | ⟨unended, _⟩
      · have found := Table.get?_insert_self x.id x records
        rw [mine, same] at found
        rw [mine, same]
        exact found
      · exact absurd phase unended
    · rename_i other
      rw [Table.get?_insert_of_ne (others j n other sole)]
      exact onFile.ended j n t runs phase (put_sole there rfl sole)

end Crowd
end Handover
