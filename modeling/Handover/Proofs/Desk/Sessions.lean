import Handover.Proofs.Bureau
import Handover.Proofs.Coordinator.Retention
import Handover.Proofs.Crowd.Versions
import Handover.Proofs.Desk

/-!
# The sessions that a desk keeps

Whatever calls go on, the record that is found under an id only grows, and once it is no longer found it never is again:
`stored_session_only_grows`. What is dropped when a record is stored, what stays and what is listed is said by
`sessions_retained`.
-/

namespace Handover

namespace BoardWrite

def session? : BoardWrite → Option Session
  | putSession s => some s
  | putAgent _ | removeAgent _ | mark _ => none

theorem session?_about {w : BoardWrite} {name : String} (about : w.about? = some name) : w.session? = none := by
  cases w with
  | putAgent | removeAgent => rfl
  | putSession | mark => cases about

end BoardWrite

namespace Crowd

/-- The records among what the registry has noted. -/
def stored (crowd : Crowd) : List Session := crowd.coordinator.registry.writes.filterMap BoardWrite.session?

end Crowd

namespace Desk
open Coordinator
variable {d : Desk} {most : Nat} {records : Table Session} {id : String} {x : Session} {orders : List Order}
  {result : Except Error Coordinator}

/-- The records that are stored at an occurrence. Only calls store any. -/
def stores (d : Desk) : Occurrence → List Session
  | .operation (.beat member around bus) =>
    (d.crowd.beat { member, around, heard := bus d.sent }).stored
  | _ => []

/-- All records that are stored, one after the other. -/
def storesIn : Desk → List Occurrence → List Session
  | _, [] => []
  | d, x :: rest => d.stores x ++ (d.act x).storesIn rest

/-- The latest version of each record. -/
def latest (stored : List Session) : Table Session := stored.foldl (fun t x => t.insert x.id x) []

/-- The records are the latest versions of all swaps that have started, and there are not too many of them that have
ended. -/
structure Keeps (most : Nat) (records : Table Session) (d : Desk) : Prop where
  made : d.coordinator.registry.Made
  runs : ∀ i m, d.crowd.Has i m → ∀ s, m.swap = some (.ok s) → m.order.Runs s
  handed : d.coordinator.registry.writes = []
  room : d.coordinator.maxSessions = most
  versioned : d.crowd.Versioned records
  bounded : d.coordinator.sessions.length ≤ max most (live d.coordinator.sessions)

/-- What may come of an occurrence at which these records are stored. -/
inductive Files (most : Nat) (records : Table Session) (d : Desk) (stored : List Session) (d' : Desk) : Prop where
  | same (none : stored = []) (sessions : d'.coordinator.sessions = d.coordinator.sessions)
      (keeps : d'.Keeps most records)
  /-- The record has grown out of the version before, if there was one. Others may be dropped for it. -/
  | stored {y : Session} (one : stored = [y])
      (prunes : Prunes most (d.coordinator.sessions.insert y.id y) d'.coordinator.sessions)
      (before : ∀ z, records.get? y.id = some z → d.coordinator.sessions.get? y.id = some z ∧ z.GrowsInto y)
      (keeps : d'.Keeps most (records.insert y.id y))

/-- The session has started, and its record was dropped. -/
def Dropped (most : Nat) (id : String) (d : Desk) : Prop :=
  ∃ records, d.Keeps most records ∧ records.contains id = true ∧ d.coordinator.sessions.get? id = none

theorem Keeps.sane (keeps : d.Keeps most records) : d.crowd.Sane := ⟨Registry.made_named keeps.made, keeps.runs⟩

theorem opened_keeps (distinct : orders.Pairwise fun o p => o.session ≠ p.session) (config : Config)
    (board : Option Blackboard) (store : Store) :
    (opened orders config board store).Keeps (max 1 config.swap.maxSessionsRetained) [] where
  made := .empty
  runs := fun _ _ there _ begun => nomatch (Crowd.gather_fresh there).1.symm.trans begun
  handed := rfl
  room := rfl
  versioned := Crowd.gather_versioned distinct rfl
  bounded := Nat.zero_le _

/-- A change to agents leaves the sessions alone. -/
theorem change_keeps (keeps : d.Keeps most records) (operates : ∀ c, result = .ok c → d.coordinator.Operates c) :
    (d.change result).coordinator.sessions = d.coordinator.sessions ∧ (d.change result).Keeps most records := by
  cases result with
  | error e => exact ⟨rfl, keeps.made, keeps.runs, keeps.handed, keeps.room, keeps.versioned, keeps.bounded⟩
  | ok c =>
    obtain ⟨alters, made⟩ := operates c rfl
    have same : ((d.change (.ok c)).coordinator).sessions = d.coordinator.sessions := alters.sessions
    refine ⟨same, .drained made, keeps.runs, rfl, alters.most.trans keeps.room, keeps.versioned.of_same same, ?_⟩
    rw [same]
    exact keeps.bounded

theorem beat_files (keeps : d.Keeps most records) (member : Nat) (around : Surroundings)
    (bus : List Errand → Except Error (Option Message)) :
    let x := Occurrence.operation (.beat member around bus)
    Files most records d (d.stores x) (d.act x) := by
  intro x
  have goes : Crowd.Goes d.crowd { member, around, heard := bus d.sent } _ := Crowd.beat_goes
  have sane := Crowd.goes_sane keeps.sane goes
  have made := Crowd.goes_made keeps.made goes
  have handed : d.crowd.coordinator.registry.writes = [] := keeps.handed
  rcases Crowd.goes_versioned keeps.sane keeps.versioned goes with ⟨alters, versioned⟩ | ⟨y, stored, versioned, before⟩
  · have none : d.stores x = [] := by
      simp only [stores, Crowd.stored, x]
      rcases alters.registry with same | ⟨w, name, about, notes⟩
      · rw [same, handed, List.filterMap_nil]
      · rw [notes.writes, handed, List.nil_append, List.filterMap_cons_none (BoardWrite.session?_about about),
          List.filterMap_nil]
    have same : (d.act x).coordinator.sessions = d.coordinator.sessions := alters.sessions
    exact .same none same
      ⟨.drained made, sane.runs, rfl, alters.most.trans keeps.room, versioned.of_same rfl, same ▸ keeps.bounded⟩
  · obtain ⟨ordered, own⟩ := keeps.versioned.onFile.filed.stored y
    have one : d.stores x = [y] := by
      simp only [stores, Crowd.stored, x]
      rw [stored.notes.writes, handed]
      rfl
    have left : (d.act x).coordinator.sessions = prune most (d.coordinator.sessions.insert y.id y) :=
      keeps.room ▸ stored.sessions
    have prunes : Prunes most (d.coordinator.sessions.insert y.id y) (d.act x).coordinator.sessions :=
      left ▸ prune_prunes ordered own most
    exact .stored one prunes before
      ⟨.drained made, sane.runs, rfl, stored.most.trans keeps.room, versioned.of_same rfl, prunes.bounded⟩

theorem Keeps.of_same {d' : Desk} (keeps : d.Keeps most records) (same : d'.crowd = d.crowd) :
    d'.coordinator.sessions = d.coordinator.sessions ∧ d'.Keeps most records := by
  cases d'
  cases same
  exact ⟨rfl, keeps.made, keeps.runs, keeps.handed, keeps.room, keeps.versioned, keeps.bounded⟩

theorem act_files (keeps : d.Keeps most records) (x : Occurrence) : Files most records d (d.stores x) (d.act x) := by
  have made := keeps.made
  have silent {d' : Desk} (after : d'.coordinator.sessions = d.coordinator.sessions ∧ d'.Keeps most records) :
      Files most records d [] d' := .same rfl after.1 after.2
  cases x with
  | write => exact silent (keeps.of_same d.write_crowd)
  | store s => exact silent (keeps.of_same rfl)
  | operation o =>
    cases o with
    | beat member around bus => exact beat_files keeps member around bus
    | register => exact silent (change_keeps keeps fun _ done => register_operates made done)
    | unregister => exact silent (change_keeps keeps fun _ done => unregister_operates made done)
    | heartbeat name now =>
      refine silent (change_keeps keeps fun c done => ?_)
      obtain ⟨⟨a, c⟩, heard, rfl⟩ := ok_of_map done
      exact heartbeat_operates made heard
    | updateState => exact silent (change_keeps keeps fun _ done => updateState_operates made done)
    | restore a =>
      refine silent (change_keeps keeps fun c done => ?_)
      obtain ⟨registry, entered, rfl⟩ := ok_of_map done
      exact restore_operates made entered
    | get | list | stale | session | sessions | flush => exact silent (keeps.of_same rfl)

theorem act_dropped (dropped : d.Dropped most id) (x : Occurrence) : (d.act x).Dropped most id := by
  obtain ⟨records, keeps, known, missing⟩ := dropped
  cases act_files keeps x with
  | same _ same keeps' => exact ⟨records, keeps', known, same ▸ missing⟩
  | @stored y _ prunes before keeps' =>
    obtain ⟨z, latest⟩ := Option.isSome_iff_exists.mp known
    have other : id ≠ y.id := by
      rintro rfl
      exact nomatch missing.symm.trans (before z latest).1
    refine ⟨_, keeps', ?_, ?_⟩
    · rw [Table.contains, Table.get?_insert_of_ne other, latest]
      rfl
    · cases found : (d.act x).coordinator.sessions.get? id with
      | none => rfl
      | some w =>
        have earlier := prunes.kept id w found
        rw [Table.get?_insert_of_ne other, missing] at earlier
        cases earlier

theorem act_found (keeps : d.Keeps most records) (found : d.coordinator.sessions.get? id = some x) (o : Occurrence) :
    (∃ y, (d.act o).coordinator.sessions.get? id = some y ∧ x.GrowsInto y) ∨ (d.act o).Dropped most id := by
  have latest := keeps.versioned.onFile.kept id x found
  cases act_files keeps o with
  | same _ same keeps' => exact .inl ⟨x, same ▸ found, .refl x⟩
  | @stored y _ prunes before keeps' =>
    cases after : (d.act o).coordinator.sessions.get? id with
    | none =>
      have known : (records.insert y.id y).contains id = true := by
        rw [Table.contains_insert, Table.contains, latest, Option.isSome_some, Bool.or_true]
      exact .inr ⟨_, keeps', known, after⟩
    | some w =>
      refine .inl ⟨w, rfl, ?_⟩
      have stored := prunes.kept id w after
      by_cases same : id = y.id
      · subst same
        rw [Table.get?_insert_self] at stored
        cases stored
        exact (before x latest).2
      · rw [Table.get?_insert_of_ne same, found] at stored
        cases stored
        exact .refl x

theorem after_dropped (dropped : d.Dropped most id) (occurrences : List Occurrence) :
    (d.after occurrences).Dropped most id := by
  induction occurrences generalizing d with
  | nil => exact dropped
  | cons x rest ih => exact ih (act_dropped dropped x)

theorem act_keeps (keeps : d.Keeps most records) (x : Occurrence) :
    (d.act x).Keeps most ((d.stores x).foldl (fun t y => t.insert y.id y) records) := by
  cases act_files keeps x with
  | same none _ keeps' =>
    rw [none]
    exact keeps'
  | stored one _ _ keeps' =>
    rw [one]
    exact keeps'

theorem after_found (keeps : d.Keeps most records) (found : d.coordinator.sessions.get? id = some x)
    (occurrences : List Occurrence) :
    (∃ y, (d.after occurrences).coordinator.sessions.get? id = some y ∧ x.GrowsInto y) ∨
      (d.after occurrences).Dropped most id := by
  induction occurrences generalizing d records x with
  | nil => exact .inl ⟨x, found, .refl x⟩
  | cons o rest ih =>
    have keeps' := act_keeps keeps o
    rcases act_found keeps found o with ⟨y, found', first⟩ | dropped
    · rcases ih keeps' found' with ⟨z, last, second⟩ | dropped
      · exact .inl ⟨z, last, first.trans second⟩
      · exact .inr dropped
    · exact .inr (after_dropped dropped rest)

theorem after_keeps (keeps : d.Keeps most records) (occurrences : List Occurrence) :
    (d.after occurrences).Keeps most ((d.storesIn occurrences).foldl (fun t y => t.insert y.id y) records) := by
  induction occurrences generalizing d records with
  | nil => exact keeps
  | cons x rest ih =>
    rw [storesIn, List.foldl_append]
    exact ih (act_keeps keeps x)

theorem session_ok_iff {c : Coordinator} : c.session id = .ok x ↔ c.sessions.get? id = some x := by
  unfold Coordinator.session
  cases c.sessions.get? id <;> simp

theorem session_missing {c : Coordinator} (missing : c.sessions.get? id = none) :
    c.session id = .error (.sessionMissing id) := by
  rw [Coordinator.session, missing]

/-- A session that was found is found grown, or not at all any more. -/
theorem stored_session_only_grows (orders : List Order) (config : Config) (board : Option Blackboard) (store : Store)
    (distinct : orders.Pairwise fun o p => o.session ≠ p.session) (before between : List Occurrence) (id : String)
    (x : Session) (found : ((opened orders config board store).after before).coordinator.session id = .ok x) :
    let d := ((opened orders config board store).after before).after between
    (∃ y, d.coordinator.session id = .ok y ∧ x.GrowsInto y) ∨
      ∀ later, (d.after later).coordinator.session id = .error (.sessionMissing id) := by
  intro d
  have keeps := after_keeps (opened_keeps distinct config board store) before
  rcases after_found keeps (session_ok_iff.mp found) between with ⟨y, there, grown⟩ | dropped
  · exact .inl ⟨y, session_ok_iff.mpr there, grown⟩
  · right
    intro later
    obtain ⟨_, _, _, missing⟩ := after_dropped dropped later
    exact session_missing missing

end Desk

namespace Sample

def secondOrder : Order := { order with newName := "other", session := "swap-2" }

/-- A desk that keeps one session. -/
def smallDesk : Desk := Desk.opened [order, secondOrder] { swap := { maxSessionsRetained := 1 } } none {}

def turnOf (member : Nat) : Occurrence := .operation (.beat member { time := ⟨2, 0⟩ } fun _ => unanswered)

/-- The first call has paused the old agent. -/
def morning : List Occurrence :=
  .operation (.register order.context elder { time := ⟨1, 0⟩ }) :: List.replicate 10 (turnOf 0)

/-- The new agent does not reply. -/
def noon : List Occurrence := List.replicate 12 (turnOf 0)

end Sample

namespace Desk

theorem stored_session_only_grows_until_rolledBack :
    ∃ x y, (Sample.smallDesk.after Sample.morning).coordinator.session "swap" = .ok x ∧ x.status = .pausing ∧
      ((Sample.smallDesk.after Sample.morning).after Sample.noon).coordinator.session "swap" = .ok y ∧
      y.status = .rolledBack ∧ x.GrowsInto y := by
  have distinct : [Sample.order, Sample.secondOrder].Pairwise fun o p => o.session ≠ p.session := by
    simp [Sample.order, Sample.secondOrder]
  obtain ⟨x, found, status⟩ : ∃ x, (Sample.smallDesk.after Sample.morning).coordinator.session "swap" = .ok x ∧
    x.status = .pausing := ⟨_, rfl, rfl⟩
  obtain ⟨z, found', status'⟩ : ∃ z, ((Sample.smallDesk.after Sample.morning).after
    Sample.noon).coordinator.session "swap" = .ok z ∧ z.status = .rolledBack := ⟨_, rfl, rfl⟩
  rcases stored_session_only_grows _ _ none {} distinct Sample.morning Sample.noon "swap" x found with
    ⟨y, there, grown⟩ | gone
  · obtain rfl : y = z := Except.ok.inj (there.symm.trans found')
    exact ⟨x, y, found, status, there, status', grown⟩
  · exact nomatch (gone []).symm.trans found'

open Coordinator in
/-- After anything that happens at a desk no more sessions are kept than may be, unless so many go on. A swap that goes
on has its latest record kept. Nothing changes the sessions but a record that is stored, for which ended sessions are
dropped if there are too many, the oldest first. What is kept is listed in the order in which it was begun. -/
theorem sessions_retained (orders : List Order) (config : Config) (board : Option Blackboard) (store : Store)
    (distinct : orders.Pairwise fun o p => o.session ≠ p.session) (before : List Occurrence) :
    let first := opened orders config board store
    let d := first.after before
    let most := max 1 config.swap.maxSessionsRetained
    let sessions := d.coordinator.sessions
    sessions.length ≤ max most (live sessions) ∧
    (∀ i m s, d.crowd.Runs i m s → s.phase ≠ .opening → s.phase ≠ .finished →
      ∃ x, sessions.get? m.order.session = some x ∧
        (latest (first.storesIn before)).get? m.order.session = some x ∧ x.isTerminal = false) ∧
    (∀ x, (d.stores x = [] ∧ (d.act x).coordinator.sessions = sessions) ∨
      ∃ y, d.stores x = [y] ∧ Prunes most (sessions.insert y.id y) (d.act x).coordinator.sessions) ∧
    d.coordinator.sessionList.Perm sessions.values ∧
    d.coordinator.sessionList.Pairwise fun x y => y.startedAt.before x.startedAt = false := by
  intro first d most sessions
  have keeps : d.Keeps most (latest (first.storesIn before)) :=
    after_keeps (opened_keeps distinct config board store) before
  refine ⟨keeps.bounded, fun i m s runs started unended => ?_, fun x => ?_, sessionList_perm _, sessionList_sorted _⟩
  · have onFile := keeps.versioned.onFile
    obtain ⟨x, there, live⟩ := onFile.running i m s runs started unended (keeps.versioned.sole runs.1)
    exact ⟨x, there, onFile.kept _ x there, live⟩
  · cases act_files keeps x with
    | same none same _ => exact .inl ⟨none, same⟩
    | stored one prunes _ _ => exact .inr ⟨_, one, prunes⟩

/-- The second call starts when the first one has ended, and one session may be kept. -/
theorem sessions_retained_when_second_starts :
    let d := (Sample.smallDesk.after (Sample.morning ++ Sample.noon)).act (Sample.turnOf 1)
    d.coordinator.sessions.length = 1 ∧ ∃ y, d.stores (Sample.turnOf 1) = [y] ∧
      Coordinator.Prunes 1 (d.coordinator.sessions.insert y.id y) (d.act (Sample.turnOf 1)).coordinator.sessions := by
  intro d
  have distinct : [Sample.order, Sample.secondOrder].Pairwise fun o p => o.session ≠ p.session := by
    simp [Sample.order, Sample.secondOrder]
  obtain ⟨_, _, files, _⟩ := sessions_retained _ { swap := { maxSessionsRetained := 1 } } none {} distinct
    (Sample.morning ++ Sample.noon ++ [Sample.turnOf 1])
  refine ⟨rfl, ?_⟩
  rcases files (Sample.turnOf 1) with ⟨none, _⟩ | stored
  · cases none
  · exact stored

end Desk
end Handover
