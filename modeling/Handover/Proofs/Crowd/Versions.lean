import Handover.Proofs.Crowd.Filing

/-!
# The versions of a record that calls side by side store

A call stores the record of its own swap only, and each version has grown out of the one before. Nothing is stored under
an id that has left the coordinator: `goes_versioned`.
-/

namespace Handover
namespace Crowd
variable {crowd crowd' : Crowd} {b : Beat} {i : Nat} {m : Member} {s s' : Swap} {c c' : Coordinator} {x : Session}
  {records : Table Session} {orders : List Order} {swap : Except Error Swap}

/-- These are the last records of all swaps that have started, no two of them under the same id, and each of them is one
that its swap has made its present record of. -/
structure Versioned (records : Table Session) (crowd : Crowd) : Prop where
  apart : crowd.Apart fun o p => o.session ≠ p.session
  onFile : crowd.OnFile records
  grows : ∀ i m s, crowd.Runs i m s → s.phase ≠ .opening →
    ∃ x, records.get? m.order.session = some x ∧ x.GrowsInto s.session

theorem gather_versioned (apart : orders.Pairwise fun o p => o.session ≠ p.session) (none : c.sessions = []) :
    (gather orders c).Versioned [] where
  apart := gather_apart (fun _ _ => Ne.symm) apart c
  onFile := gather_onFile orders none
  grows := fun _ _ _ ⟨there, begun⟩ => nomatch (gather_fresh there).1.symm.trans begun

theorem Versioned.of_same (versioned : crowd.Versioned records) (same : c.sessions = crowd.coordinator.sessions) :
    ({ crowd with coordinator := c } : Crowd).Versioned records :=
  ⟨versioned.apart, versioned.onFile.of_same same, versioned.grows⟩

theorem Versioned.sole (versioned : crowd.Versioned records) (there : crowd.Has i m) : crowd.Sole i m :=
  fun _ _ other found => versioned.apart _ _ _ _ other found there

/-- The record that a swap stores has grown out of the one before, which the coordinator still has. -/
theorem Versioned.before (versioned : crowd.Versioned records) (there : crowd.Has i m) (begun : m.swap = some (.ok s))
    (unended : s.phase ≠ .finished) (y : Session) (earlier : records.get? m.order.session = some y) :
    crowd.coordinator.sessions.get? m.order.session = some y ∧ y.GrowsInto s.session := by
  have started : s.phase ≠ .opening := by
    intro opening
    have known : records.contains m.order.session = true := by rw [Table.contains, earlier, Option.isSome_some]
    obtain ⟨j, n, t, runs, begun', own⟩ := (versioned.onFile.started _).mp known
    by_cases same : j = i
    · subst same
      obtain rfl := has_unique there runs.1
      obtain rfl : s = t := Except.ok.inj (Option.some.inj (begun.symm.trans runs.2))
      exact begun' opening
    · exact versioned.sole there j n same runs.1 own
  obtain ⟨x, found, _⟩ := versioned.onFile.running i m s ⟨there, begun⟩ started unended (versioned.sole there)
  obtain rfl : x = y := Option.some.inj ((versioned.onFile.kept _ _ found).symm.trans earlier)
  obtain ⟨z, latest, grows⟩ := versioned.grows i m s ⟨there, begun⟩ started
  obtain rfl : z = x := Option.some.inj (latest.symm.trans earlier)
  exact ⟨found, grows⟩

/-- At a beat the records stay, or one of them is stored. It has grown out of the version before, if there was one, and
that had not been dropped. -/
theorem goes_versioned (sane : crowd.Sane) (versioned : crowd.Versioned records) (goes : Goes crowd b crowd') :
    (crowd.coordinator.Alters crowd'.coordinator ∧ crowd'.Versioned records) ∨
      ∃ x, crowd.coordinator.Stores x crowd'.coordinator ∧ crowd'.Versioned (records.insert x.id x) ∧
        ∀ y, records.get? x.id = some y → crowd.coordinator.sessions.get? x.id = some y ∧ y.GrowsInto x := by
  have apart := goes_apart versioned.apart goes
  cases goes with
  | stayed => exact .inl ⟨Coordinator.alters_same _, versioned⟩
  | @placed m there fresh =>
    refine .inl ⟨Coordinator.alters_same _, apart, placed_onFile versioned.onFile there fresh,
      fun j n t runs started => ?_⟩
    rw [put_runs there] at runs
    split at runs
    · exact absurd (Call.start_fits runs.2).2 started
    · exact versioned.grows j n t runs started
  | @moved m s s' c' there begun moves =>
    have on := (sane.runs _ _ there _ begun).course
    rcases Swap.moves_files sane.named on moves with
      ⟨alters, started, still⟩ | ⟨x, stores, own, last, unended, earlier, later⟩
    · refine .inl ⟨alters, apart, altered_onFile versioned.onFile there begun moves alters started still,
        fun j n t runs started' => ?_⟩
      rw [put_runs there] at runs
      split at runs
      · obtain ⟨rfl, ⟨⟩⟩ := runs
        obtain ⟨x, latest, grows⟩ := versioned.grows _ m s ⟨there, begun⟩ started
        exact ⟨x, latest, grows.trans (Swap.moves_grows on moves)⟩
      · exact versioned.grows j n t runs started'
    · have mine : x.id = m.order.session := own.trans (versioned.onFile.own _ m s ⟨there, begun⟩)
      refine .inr ⟨x, stores, ⟨apart, stored_onFile versioned.onFile there begun moves stores own last,
        fun j n t runs started' => ?_⟩, fun y known => ?_⟩
      · rw [put_runs there] at runs
        split at runs
        · obtain ⟨rfl, ⟨⟩⟩ := runs
          exact ⟨x, mine ▸ Table.get?_insert_self x.id x records, later⟩
        · rename_i other
          have unlike : n.order.session ≠ x.id := mine ▸ versioned.sole there j n other runs.1
          rw [Table.get?_insert_of_ne unlike]
          exact versioned.grows j n t runs started'
      · rw [mine] at known ⊢
        obtain ⟨found, grows⟩ := versioned.before there begun unended y known
        exact ⟨found, grows.trans earlier⟩

end Crowd
end Handover
