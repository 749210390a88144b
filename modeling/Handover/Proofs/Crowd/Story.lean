import Handover.Proofs.Crowd.Filing
import Handover.Proofs.Swap.Story

/-!
# What calls side by side announce

The calls announce what they do in one list, in whatever order they go on. As no two of them have the same id, the
events under the id of a call are those that its swap has announced: `Tells`.
-/

namespace Handover

/-- What is announced of a call: nothing if it was refused, and otherwise the story of the session that it returned. -/
inductive Outcome.HeardAs (o : Order) : Outcome → List SwapEvent → Prop where
  | refused (e : Error) : HeardAs o (.failed e none) []
  | begun {outcome : Outcome} {record : Session} {last : SwapEvent} (returned : outcome.session? = some record)
      (own : record.id = o.session) (ends : record.EndsWith last) :
      HeardAs o outcome
        (.started record.id o.oldName o.newName :: record.completedSteps.map (.stepCompleted record.id) ++ [last])

namespace Member

/-- What the call has announced. -/
def announced (m : Member) : List SwapEvent :=
  match m.swap with
  | some (.ok s) => s.announced
  | _ => []

theorem announced_running {m : Member} {s : Swap} (begun : m.swap = some (.ok s)) : m.announced = s.announced := by
  simp [announced, begun]

end Member

namespace Crowd
variable {crowd crowd' : Crowd} {b : Beat} {i : Nat} {m : Member} {c c' : Coordinator} {orders : List Order}
  {said : List SwapEvent} {swap : Except Error Swap} {o : Order} {outcome : Outcome} {e : Error}

/-- These are calls for the orders, no two under the same id, and under each id stands what that call has announced. -/
structure Tells (orders : List Order) (crowd : Crowd) : Prop where
  placed : crowd.members.map Member.order = orders
  apart : crowd.Apart fun o p => o.session ≠ p.session
  runs : ∀ i m s, crowd.Runs i m s → Swap.OnCourse s ∧ ∃ c, m.order.Fits c s
  told : ∀ i m, crowd.Has i m → crowd.coordinator.events.filter (·.session = m.order.session) = m.announced

theorem gather_tells (apart : orders.Pairwise fun o p => o.session ≠ p.session) (silent : c.events = []) :
    (gather orders c).Tells orders where
  placed := by simp [gather, Function.comp_def]
  apart := gather_apart (fun _ _ => Ne.symm) apart c
  runs := fun i m s ⟨there, begun⟩ => nomatch (gather_fresh there).1.symm.trans begun
  told := by
    intro i m there
    have events : (gather orders c).coordinator.events = [] := silent
    rw [events, Member.announced, (gather_fresh there).1]
    rfl

theorem Tells.of_same (tells : crowd.Tells orders) (same : c.events = crowd.coordinator.events) :
    ({ crowd with coordinator := c } : Crowd).Tells orders where
  placed := tells.placed
  apart := tells.apart
  runs := tells.runs
  told := fun i m there => same ▸ tells.told i m there

theorem put_orders (there : crowd.Has i m) :
    (crowd.put i (m.call swap) c).members.map Member.order = crowd.members.map Member.order := by
  have kept : (crowd.members.map Member.order)[i]? = some m.order := by
    rw [List.getElem?_map, there]
    rfl
  obtain ⟨inside, same⟩ := List.getElem?_eq_some_iff.mp kept
  have order : (m.call swap).order = m.order := rfl
  rw [put, List.map_set, order, ← same, List.set_getElem_self]

/-- The call for an order is in its place. -/
theorem Tells.member (tells : crowd.Tells orders) (given : orders[i]? = some o) :
    ∃ m, crowd.Has i m ∧ m.order = o := by
  rwa [← tells.placed, List.getElem?_map, Option.map_eq_some_iff] at given

/-- A call has gone on, and all that came in is its own. -/
theorem put_tells (tells : crowd.Tells orders)
    (apart : (crowd.put i (m.call swap) c).Apart fun o p => o.session ≠ p.session) (there : crowd.Has i m)
    (events : c.events = crowd.coordinator.events ++ said)
    (own : ∀ e ∈ said, e.session = m.order.session) (announced : (m.call swap).announced = m.announced ++ said)
    (runs : ∀ s, swap = .ok s → Swap.OnCourse s ∧ ∃ c, m.order.Fits c s) :
    (crowd.put i (m.call swap) c).Tells orders := by
  have all : (crowd.put i (m.call swap) c).coordinator.events = crowd.coordinator.events ++ said := events
  refine ⟨(put_orders there).trans tells.placed, apart, fun j n s found => ?_, fun j n found => ?_⟩
  · rw [put_runs there] at found
    split at found
    · obtain ⟨rfl, begun⟩ := found
      exact runs s begun
    · exact tells.runs j n s found
  · rw [all, List.filter_append]
    rw [has_put there] at found
    split at found
    · subst found
      have mine : said.filter (·.session = (m.call swap).order.session) = said :=
        List.filter_eq_self.mpr fun e there => decide_eq_true (own e there)
      rw [announced, mine]
      exact congrArg (· ++ said) (tells.told i m there)
    · rename_i other
      have none : said.filter (·.session = n.order.session) = [] := by
        refine List.filter_eq_nil_iff.mpr fun e heard => ?_
        rw [own e heard, decide_eq_true_eq]
        exact tells.apart i j m n (Ne.symm other) there found
      rw [none, List.append_nil]
      exact tells.told j n found

theorem start_announced (o : Order) (c : Coordinator) (m : Member) : (m.call (o.start c).swap).announced = [] := by
  cases begun : (o.start c).swap with
  | error e => rfl
  | ok s => exact Swap.announced_opening (Call.start_fits begun).2

/-- Whatever comes of a beat, it adds to the events what the call announces. -/
theorem goes_tells (tells : crowd.Tells orders) (goes : Goes crowd b crowd') :
    crowd'.Tells orders ∧ ∃ said, crowd'.coordinator.events = crowd.coordinator.events ++ said := by
  have apart := goes_apart tells.apart goes
  cases goes with
  | stayed => exact ⟨tells, [], (List.append_nil _).symm⟩
  | @placed m there fresh =>
    have silent : crowd.coordinator.events = crowd.coordinator.events ++ [] := (List.append_nil _).symm
    have none : m.announced = [] := by rw [Member.announced, fresh]
    refine ⟨put_tells tells apart there silent nofun ?_ fun s begun => ?_, [], silent⟩
    · rw [start_announced, none, List.append_nil]
    · exact ⟨Swap.begun_onCourse begun, _, (Call.start_fits begun).1⟩
  | @moved m s s' c' there begun moves =>
    obtain ⟨on, before, fits⟩ := tells.runs _ _ _ ⟨there, begun⟩
    obtain ⟨said, events, announced⟩ := Swap.moves_announced on moves
    have fits := Call.moves_fits fits moves
    refine ⟨put_tells tells apart there events (fun e heard => ?_) ?_ ?_, said, events⟩
    · rw [← fits.id]
      exact s'.announced_session e (announced ▸ List.mem_append_right _ heard)
    · rw [Member.announced_running begun]
      exact announced
    · rintro _ ⟨⟩
      exact ⟨Swap.moves_onCourse on moves, before, fits⟩

/-- As long as a swap has not started, nothing is announced of it. -/
theorem Tells.unstarted (tells : crowd.Tells orders) (given : orders[i]? = some o)
    (early : ¬ crowd.Started o.session) : crowd.coordinator.events.filter (·.session = o.session) = [] := by
  obtain ⟨m, there, rfl⟩ := tells.member given
  rw [tells.told i m there]
  unfold Member.announced
  split
  · rename_i s begun
    refine Swap.announced_opening (Classical.byContradiction fun started => early ?_)
    exact ⟨i, m, s, ⟨there, begun⟩, started, rfl⟩
  · rfl

/-- A call that has returned has told the story of its session. -/
theorem Tells.returned (tells : crowd.Tells orders) (given : orders[i]? = some o)
    (ended : crowd.outcome? i = some outcome) :
    outcome.HeardAs o (crowd.coordinator.events.filter (·.session = o.session)) := by
  obtain ⟨m, there, rfl⟩ := tells.member given
  obtain ⟨n, found, ended⟩ := Option.bind_eq_some_iff.mp ended
  obtain rfl := has_unique there found
  obtain ⟨swap, begun, ended⟩ := Option.bind_eq_some_iff.mp ended
  rw [tells.told i m there]
  cases swap with
  | error e =>
    rw [Call.outcome_refused rfl] at ended
    cases ended
    rw [Member.announced, begun]
    exact .refused e
  | ok s =>
    obtain ⟨on, before, fits⟩ := tells.runs i m s ⟨there, begun⟩
    obtain ⟨atEnd, rfl⟩ := Call.outcome_begun rfl ended
    have phase : s.phase = .finished := by simpa [Swap.isOver] using atEnd
    rw [Member.announced_running begun, Swap.announced_finished phase, fits.oldName, fits.newName]
    refine .begun ?_ fits.id (Swap.ended_endsWith on atEnd)
    cases s.error <;> rfl

/-- Nothing is announced at a beat of a call that is refused. -/
theorem refused_silent (goes : Goes crowd b crowd') (refused : crowd'.outcome? b.member = some (.failed e none)) :
    crowd'.coordinator = crowd.coordinator := by
  cases goes with
  | stayed | placed => rfl
  | @moved m s s' c' there begun moves =>
    obtain ⟨n, found, ended⟩ := Option.bind_eq_some_iff.mp refused
    obtain rfl := has_unique (has_put_self there) found
    have ended : (⟨.ok s', c'⟩ : Call).outcome? = some (.failed e none) := ended
    rcases Call.failed_cases ended with ⟨error, _⟩ | ⟨_, _, _, _, some⟩
    · cases error
    · cases some

end Crowd
end Handover
