import Handover.Proofs.Coordinator
import Handover.Proofs.Time

/-!
# Which sessions a coordinator drops

When a record is stored and there are too many, ended ones are dropped until there are as many as may be kept or none
of them is left, the oldest first: `prune_prunes`. Sessions are listed in the order in which they were begun.
-/

namespace Handover

/-- The first session was begun before the second one, or together with it and has the lesser id. -/
def Session.Precedes (x y : Session) : Prop :=
  x.startedAt.before y.startedAt = true ∨ x.startedAt = y.startedAt ∧ x.id < y.id

namespace Coordinator
variable {x y z : Session} {most : Nat} {sessions left : Table Session} {gone : List Session} {id : String}

/-! ## The order -/

theorem dropsBefore_iff : dropsBefore x y = true ↔ ¬ y.Precedes x := by
  unfold dropsBefore Session.Precedes
  simp only [Bool.or_eq_true, Bool.and_eq_true, Bool.not_eq_true', decide_eq_true_eq, not_or, not_and, String.not_lt,
    Bool.not_eq_true]
  constructor
  · rintro (earlier | ⟨together, lesser⟩)
    · rw [Instant.before_iff] at earlier
      refine ⟨Instant.not_before_iff.mpr (by omega), fun same => ?_⟩
      rw [same] at earlier
      omega
    · exact ⟨together, fun _ => lesser⟩
  · rintro ⟨together, lesser⟩
    cases earlier : x.startedAt.before y.startedAt with
    | true => exact .inl rfl
    | false => exact .inr ⟨together, lesser (Instant.eq_of_not_before together earlier)⟩

theorem dropsBefore_total (x y : Session) : (dropsBefore x y || dropsBefore y x) = true := by
  rw [Bool.or_eq_true]
  cases earlier : x.startedAt.before y.startedAt with
  | true => simp [dropsBefore, earlier]
  | false =>
    cases later : y.startedAt.before x.startedAt with
    | true => simp [dropsBefore, later]
    | false => simpa [dropsBefore, earlier, later] using String.le_total x.id y.id

theorem dropsBefore_trans (x y z : Session) (first : dropsBefore x y = true) (second : dropsBefore y z = true) :
    dropsBefore x z = true := by
  simp only [dropsBefore, Bool.or_eq_true, Bool.and_eq_true, Bool.not_eq_true', decide_eq_true_eq,
    Instant.not_before_iff, Instant.before_iff] at first second ⊢
  rcases first with earlier | ⟨together, lesser⟩
  · rcases second with later | ⟨later, _⟩
    · exact .inl (by omega)
    · exact .inl (by omega)
  · rcases second with later | ⟨later, lesser'⟩
    · exact .inl (by omega)
    · exact .inr ⟨by omega, String.le_trans lesser lesser'⟩

theorem startedBy_iff : startedBy x y = true ↔ y.startedAt.before x.startedAt = false := by
  simp [startedBy]

theorem startedBy_total (x y : Session) : (startedBy x y || startedBy y x) = true := by
  simp only [Bool.or_eq_true, startedBy_iff, Instant.not_before_iff]
  omega

theorem startedBy_trans (x y z : Session) (first : startedBy x y = true) (second : startedBy y z = true) :
    startedBy x z = true := by
  simp only [startedBy_iff, Instant.not_before_iff] at first second ⊢
  omega

/-! ## What is dropped -/

/-- How many of the sessions go on. -/
def live (sessions : Table Session) : Nat := sessions.values.countP fun x => !x.isTerminal

/-- What is left of the sessions when no more of them are to be kept than so many, if that can be. -/
structure Prunes (most : Nat) (sessions left : Table Session) : Prop where
  kept : ∀ id x, left.get? id = some x → sessions.get? id = some x
  bounded : left.length ≤ max most (live left)
  /-- No more are dropped than are too many. -/
  enough : min most sessions.length ≤ left.length
  /-- What is dropped has ended, there were too many, and no ended session that is kept precedes it. -/
  dropped : ∀ id x, sessions.get? id = some x → left.get? id = none →
    x.isTerminal = true ∧ most < sessions.length ∧
      ∀ other y, left.get? other = some y → y.isTerminal = true → ¬ y.Precedes x

/-- Dropping ended sessions leaves those that go on, and as many fewer as are dropped. -/
theorem dropped_counts (ordered : sessions.Ordered) (distinct : (gone.map Session.id).Nodup)
    (there : ∀ x ∈ gone, sessions.get? x.id = some x ∧ x.isTerminal = true) :
    let left := gone.foldl (fun t x => t.erase x.id) sessions
    left.length + gone.length = sessions.length ∧ live left = live sessions := by
  induction gone generalizing sessions with
  | nil => exact ⟨rfl, rfl⟩
  | cons x rest ih =>
    obtain ⟨unlike, distinct⟩ := List.nodup_cons.mp distinct
    obtain ⟨found, ended⟩ := there x (.head _)
    have others : ∀ y ∈ rest, (sessions.erase x.id).get? y.id = some y ∧ y.isTerminal = true := by
      intro y later
      have other : y.id ≠ x.id := fun same => unlike (List.mem_map.mpr ⟨y, later, same⟩)
      rw [Table.get?_erase_of_ne other]
      exact there y (.tail _ later)
    obtain ⟨length, alive⟩ := ih (Table.ordered_erase ordered x.id) distinct others
    have one := Table.countP_erase ordered found fun _ => true
    have ongoing := Table.countP_erase ordered found fun x => !x.isTerminal
    simp only [List.countP_true, Table.values, List.length_map, if_true] at one
    simp only [ended, Bool.not_true, Bool.false_eq_true, if_false, Nat.add_zero] at ongoing
    refine ⟨?_, alive.trans ongoing.symm⟩
    dsimp only [List.foldl_cons] at length ⊢
    rw [List.length_cons]
    omega

/-- The sessions that have ended, the one that is dropped first at the head. -/
def endedFirst (sessions : Table Session) : List Session :=
  (sessions.values.filter Session.isTerminal).mergeSort dropsBefore

theorem endedFirst_length (sessions : Table Session) :
    (endedFirst sessions).length + live sessions = sessions.length := by
  rw [endedFirst, List.length_mergeSort, ← List.countP_eq_length_filter, live]
  have split := List.length_eq_countP_add_countP Session.isTerminal (l := sessions.values)
  simpa [Table.values] using split.symm

theorem endedFirst_sorted (sessions : Table Session) :
    (endedFirst sessions).Pairwise fun x y => dropsBefore x y = true :=
  List.pairwise_mergeSort dropsBefore_trans dropsBefore_total _

section
variable (ordered : sessions.Ordered) (keyed : ∀ id x, sessions.get? id = some x → x.id = id)
include ordered keyed

theorem mem_endedFirst : x ∈ endedFirst sessions ↔ sessions.get? x.id = some x ∧ x.isTerminal = true := by
  unfold endedFirst
  rw [List.mem_mergeSort, List.mem_filter, and_congr_left_iff]
  intro _
  constructor
  · intro inside
    obtain ⟨⟨key, _⟩, entry, rfl⟩ := List.mem_map.mp inside
    have found := Table.get?_of_mem ordered entry
    dsimp only at found ⊢
    rwa [keyed key _ found]
  · intro found
    exact List.mem_map.mpr ⟨_, Table.mem_of_get? found, rfl⟩

theorem endedFirst_distinct : ((endedFirst sessions).map Session.id).Nodup := by
  have ids : sessions.values.map Session.id = sessions.names := by
    rw [Table.values, List.map_map]
    exact List.map_congr_left fun e there => keyed e.1 e.2 (Table.get?_of_mem ordered there)
  have names : sessions.names.Nodup := ordered.imp String.ne_of_lt
  have sorted := (List.mergeSort_perm (sessions.values.filter Session.isTerminal) dropsBefore).map Session.id
  rw [endedFirst, sorted.nodup_iff]
  exact (ids ▸ names).sublist (List.filter_sublist.map Session.id)

/-- What is not among those that are dropped first does not precede any of them. -/
theorem spared_precedes_none {rest : List Session} (all : gone ++ rest = endedFirst sessions) (out : x ∈ gone)
    (there : sessions.get? y.id = some y) (ended : y.isTerminal = true) (spared : y.id ∉ gone.map Session.id) :
    ¬ y.Precedes x := by
  have sorted := endedFirst_sorted sessions
  have inside := (mem_endedFirst ordered keyed).mpr ⟨there, ended⟩
  rw [← all, List.mem_append] at inside
  rw [← all, List.pairwise_append] at sorted
  rcases inside with out' | later
  · exact absurd (List.mem_map.mpr ⟨y, out', rfl⟩) spared
  · exact dropsBefore_iff.mp (sorted.2.2 x out y later)

theorem prune_prunes (most : Nat) : Prunes most sessions (prune most sessions) := by
  have left : prune most sessions =
      ((endedFirst sessions).take (sessions.length - most)).foldl (fun t x => t.erase x.id) sessions := rfl
  have all := List.take_append_drop (sessions.length - most) (endedFirst sessions)
  have many := List.length_take (i := sessions.length - most) (l := endedFirst sessions)
  have ended := endedFirst_length sessions
  rw [left]
  -- Fewer are taken than are too many only if no more have ended; then all that is left goes on.
  generalize (endedFirst sessions).take (sessions.length - most) = gone at all many
  have were : ∀ x ∈ gone, sessions.get? x.id = some x ∧ x.isTerminal = true :=
    fun x there => (mem_endedFirst ordered keyed).mp (all ▸ List.mem_append_left _ there)
  have distinct := endedFirst_distinct ordered keyed
  rw [← all, List.map_append] at distinct
  obtain ⟨length, alive⟩ := dropped_counts ordered (List.nodup_append.mp distinct).1 were
  refine ⟨fun id x there => ?_, by omega, by omega, fun id x there missing => ?_⟩
  · rw [get?_foldl_erase] at there
    split at there
    · cases there
    · exact there
  · rw [get?_foldl_erase] at missing
    split at missing
    · rename_i dropped
      obtain ⟨z, out, rfl⟩ := List.mem_map.mp dropped
      obtain ⟨found, done⟩ := were z out
      obtain rfl : z = x := Option.some.inj (found.symm.trans there)
      have some := List.length_pos_of_mem out
      refine ⟨done, by omega, fun other y kept done' => ?_⟩
      rw [get?_foldl_erase] at kept
      split at kept
      · cases kept
      · rename_i spared
        obtain rfl := keyed other y kept
        exact spared_precedes_none ordered keyed all out kept done' spared
    · exact nomatch there.symm.trans missing

end

theorem sessionList_perm (c : Coordinator) : c.sessionList.Perm c.sessions.values := List.mergeSort_perm _ _

theorem sessionList_sorted (c : Coordinator) :
    c.sessionList.Pairwise fun x y => y.startedAt.before x.startedAt = false := by
  have sorted : c.sessionList.Pairwise fun x y => startedBy x y = true :=
    List.pairwise_mergeSort startedBy_trans startedBy_total _
  exact sorted.imp startedBy_iff.mp

end Coordinator
end Handover
