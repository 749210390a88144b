import Handover.Proofs.Call
import Handover.Proofs.Swap.Edits

/-!
# Calls side by side

Several calls to replace agents share a coordinator and go on in any order, each at its own beats. `Goes` lists
what a beat may come to; what every beat keeps holds after any run: `play_keeps`.
-/

namespace Handover

/-- One of several calls, which is placed at its first beat. -/
structure Member where
  order : Order
  /-- The swap, or why it was refused, once the call was placed. -/
  swap : Option (Except Error Swap) := none

/-- The turn of one of the calls, with what the bus gave if the call waits for that. -/
structure Beat where
  member : Nat
  around : Surroundings
  heard : Except Error (Option Message)

structure Crowd where
  members : List Member
  coordinator : Coordinator

/-- The swap is one for the order. -/
structure Order.Runs (o : Order) (s : Swap) : Prop where
  course : Swap.OnCourse s
  grounded : Swap.Grounded s
  context : s.context = o.context
  oldName : s.session.oldName = o.oldName
  newName : s.session.newName = o.newName
  changes : s.changes = o.changes
  /-- A swap that ends well has paused the old agent. -/
  paused : s.phase = .closing ∨ s.phase = .finished → s.error = none → s.oldPaused = true

namespace Swap
variable {s s' : Swap} {c c' : Coordinator} {around : Surroundings} {heard : Except Error (Option Message)}

theorem moves_paused (on : OnCourse s)
    (paused : s.phase = .closing ∨ s.phase = .finished → s.error = none → s.oldPaused = true)
    (moves : Moves s c around heard s' c') :
    s'.phase = .closing ∨ s'.phase = .finished → s'.error = none → s'.oldPaused = true := by
  intro ended sound
  cases moves with
  | won phase => exact (on.reached (m := .leaving .finalize) (by rw [phase]; rfl)).paused
  | closed phase => exact paused (.inl phase) sound
  | rested phase => exact paused ended sound
  | unrevived phase => exact (on.turnedBack (.inr (.inl phase))).1
  | resumed phase => exact (on.turnedBack (.inr (.inr phase))).1
  | stopped | vanished | unfinished => cases sound
  | entered => split at ended <;> simp at ended
  | _ => simp at ended

end Swap

namespace Member

def call (m : Member) (swap : Except Error Swap) : Member := { m with swap := some swap }

def take (m : Member) (c : Coordinator) (b : Beat) : Call :=
  match m.swap with
  | none => m.order.start c
  | some swap => (⟨swap, c⟩ : Call).turn (.own b.around b.heard)

def outcome? (m : Member) (c : Coordinator) : Option Outcome :=
  m.swap.bind fun swap => (⟨swap, c⟩ : Call).outcome?

@[simp]
theorem call_swap (m : Member) (swap : Except Error Swap) : (m.call swap).swap = some swap := rfl

end Member

namespace Crowd

/-- The calls for these orders, none of them placed. -/
def gather (orders : List Order) (c : Coordinator) : Crowd where
  members := orders.map fun order => { order }
  coordinator := c

def agents (crowd : Crowd) : Table Registration := crowd.coordinator.registry.agents

/-- The call in this place is `m`. -/
def Has (crowd : Crowd) (i : Nat) (m : Member) : Prop := crowd.members[i]? = some m

def put (crowd : Crowd) (i : Nat) (m : Member) (c : Coordinator) : Crowd where
  members := crowd.members.set i m
  coordinator := c

def beat (crowd : Crowd) (b : Beat) : Crowd :=
  match crowd.members[b.member]? with
  | none => crowd
  | some m =>
    let call := m.take crowd.coordinator b
    crowd.put b.member (m.call call.swap) call.coordinator

def play (crowd : Crowd) (beats : List Beat) : Crowd := beats.foldl beat crowd

/-- How the call in this place ended, if it has. -/
def outcome? (crowd : Crowd) (i : Nat) : Option Outcome :=
  crowd.members[i]?.bind fun m => m.outcome? crowd.coordinator

/-- At every beat `P` holds of the calls before it. -/
def Always (P : Crowd → Beat → Prop) : Crowd → List Beat → Prop
  | _, [] => True
  | crowd, b :: rest => P crowd b ∧ Always P (crowd.beat b) rest

/-- What may come of a beat. -/
inductive Goes (crowd : Crowd) (b : Beat) : Crowd → Prop where
  | stayed : Goes crowd b crowd
  | placed (there : crowd.Has b.member m) (fresh : m.swap = none) :
      Goes crowd b (crowd.put b.member (m.call (m.order.start crowd.coordinator).swap) crowd.coordinator)
  | moved (there : crowd.Has b.member m) (begun : m.swap = some (.ok s))
      (moves : Swap.Moves s crowd.coordinator b.around b.heard s' c') :
      Goes crowd b (crowd.put b.member (m.call (.ok s')) c')

/-- The orders of any two of the calls are so related. -/
def Apart (R : Order → Order → Prop) (crowd : Crowd) : Prop :=
  ∀ i j m n, i ≠ j → crowd.Has i m → crowd.Has j n → R m.order n.order

/-- Every agent stands under its own name, and every swap is one for the order of its call. -/
structure Sane (crowd : Crowd) : Prop where
  named : Registry.Named crowd.agents
  runs : ∀ i m, crowd.Has i m → ∀ s, m.swap = some (.ok s) → m.order.Runs s

variable {crowd crowd' : Crowd} {b : Beat} {beats : List Beat} {P : Crowd → Beat → Prop} {I : Crowd → Prop}
  {i j : Nat} {m m' : Member} {s s' : Swap} {name : String} {c c' : Coordinator} {o p : Order}
  {orders : List Order}

@[simp]
theorem put_agents (crowd : Crowd) (i : Nat) (m : Member) (c : Coordinator) :
    (crowd.put i m c).agents = c.registry.agents := rfl

theorem has_put (there : crowd.Has i m) :
    (crowd.put i m' c).Has j x ↔ if j = i then x = m' else crowd.Has j x := by
  obtain ⟨inside, _⟩ := List.getElem?_eq_some_iff.mp there
  by_cases same : j = i
  · subst same
    simp [Has, put, inside, eq_comm]
  · simp [Has, put, same, Ne.symm same]

theorem has_put_self (there : crowd.Has i m) : (crowd.put i m' c).Has i m' :=
  (has_put there).mpr (if_pos rfl ▸ rfl)

theorem has_put_other {x : Member} (there : crowd.Has i m) (found : crowd.Has j x) (other : j ≠ i) :
    (crowd.put i m' c).Has j x :=
  (has_put there).mpr (if_neg other ▸ found)

theorem has_unique (there : crowd.Has i m) (also : crowd.Has i m') : m = m' :=
  Option.some.inj (there.symm.trans also)

@[simp]
theorem play_nil (crowd : Crowd) : crowd.play [] = crowd := rfl

@[simp]
theorem play_cons (crowd : Crowd) (b : Beat) (rest : List Beat) :
    crowd.play (b :: rest) = (crowd.beat b).play rest := rfl

theorem play_append (crowd : Crowd) (before after : List Beat) :
    crowd.play (before ++ after) = (crowd.play before).play after := List.foldl_append

theorem beat_goes : Goes crowd b (crowd.beat b) := by
  unfold beat
  split
  · exact .stayed
  · rename_i m there
    cases placed : m.swap with
    | none =>
      have goes := Goes.placed there placed
      simpa [Member.take, placed, Order.start] using goes
    | some swap =>
      cases swap with
      | error e =>
        have same : crowd.put b.member (m.call (.error e)) crowd.coordinator = crowd := by
          obtain ⟨inside, rfl⟩ := List.getElem?_eq_some_iff.mp there
          have unchanged : crowd.members[b.member].call (.error e) = crowd.members[b.member] := by
            simp [Member.call, ← placed]
          rw [put, unchanged, List.set_getElem_self]
        have goes : Goes crowd b crowd := .stayed
        simpa [Member.take, placed, Call.turn, same] using goes
      | ok s =>
        have goes := Goes.moved there placed (@Swap.advance_moves s crowd.coordinator b.around b.heard)
        simpa [Member.take, placed, Call.turn] using goes

theorem play_keeps (keeps : ∀ crowd b crowd', I crowd → P crowd b → Goes crowd b crowd' → I crowd')
    (held : I crowd) (always : crowd.Always P beats) : I (crowd.play beats) := by
  induction beats generalizing crowd with
  | nil => exact held
  | cons b rest ih => exact ih (keeps crowd b _ held always.1 beat_goes) always.2

theorem always_of_keeps (keeps : ∀ crowd b crowd', I crowd → Goes crowd b crowd' → I crowd')
    (each : ∀ crowd, ∀ b ∈ beats, I crowd → P crowd b) (held : I crowd) : crowd.Always P beats := by
  induction beats generalizing crowd with
  | nil => trivial
  | cons b rest ih =>
    refine ⟨each crowd b (.head _) held, ih (fun crowd b there => each crowd b (.tail _ there)) ?_⟩
    exact keeps crowd b _ held beat_goes

theorem always_true (crowd : Crowd) (beats : List Beat) : crowd.Always (fun _ _ => True) beats :=
  always_of_keeps (I := fun _ => True) (fun _ _ _ _ _ => trivial) (fun _ _ _ _ => trivial) trivial

theorem play_invariant (keeps : ∀ crowd b crowd', I crowd → Goes crowd b crowd' → I crowd') (held : I crowd)
    (beats : List Beat) : I (crowd.play beats) :=
  play_keeps (fun crowd b crowd' held _ goes => keeps crowd b crowd' held goes) held (always_true crowd beats)

/-- The orders of the calls, in their places. -/
theorem goes_order (goes : Goes crowd b crowd') (there : crowd'.Has i m) :
    ∃ m', crowd.Has i m' ∧ m'.order = m.order := by
  have replaced : ∀ {m₀ : Member} {swap : Except Error Swap} {c : Coordinator}, crowd.Has b.member m₀ →
      (crowd.put b.member (m₀.call swap) c).Has i m → ∃ m', crowd.Has i m' ∧ m'.order = m.order := by
    intro m₀ swap c found after
    rw [has_put found] at after
    split at after
    · rename_i same
      subst same after
      exact ⟨m₀, found, rfl⟩
    · exact ⟨m, after, rfl⟩
  cases goes with
  | stayed => exact ⟨m, there, rfl⟩
  | placed found => exact replaced found there
  | moved found => exact replaced found there

theorem gather_fresh (there : (gather orders c).Has i m) : m.swap = none ∧ orders[i]? = some m.order := by
  simp only [Has, gather, List.getElem?_map, Option.map_eq_some_iff] at there
  obtain ⟨o, found, rfl⟩ := there
  exact ⟨rfl, found⟩

theorem completed_cases {record : Session} (ended : crowd.outcome? i = some (.completed record)) :
    ∃ m s, crowd.Has i m ∧ m.swap = some (.ok s) ∧ s.isOver = true ∧ s.error = none ∧ record = s.session := by
  obtain ⟨m, there, returned⟩ := Option.bind_eq_some_iff.mp ended
  obtain ⟨swap, begun, returned⟩ := Option.bind_eq_some_iff.mp returned
  obtain ⟨s, same, rest⟩ := Call.completed_cases returned
  exact ⟨m, s, there, same ▸ begun, rest⟩

theorem gather_apart {R : Order → Order → Prop} (symm : ∀ o p, R o p → R p o) (pairwise : orders.Pairwise R)
    (c : Coordinator) : (gather orders c).Apart R := by
  intro i j m n differ first second
  obtain ⟨inside, here⟩ := List.getElem?_eq_some_iff.mp (gather_fresh first).2
  obtain ⟨inside', there⟩ := List.getElem?_eq_some_iff.mp (gather_fresh second).2
  rw [List.pairwise_iff_getElem] at pairwise
  rw [← here, ← there]
  rcases Nat.lt_or_gt_of_ne differ with before | after
  · exact pairwise i j inside inside' before
  · exact symm _ _ (pairwise j i inside' inside after)

theorem goes_apart {R : Order → Order → Prop} (apart : crowd.Apart R) (goes : Goes crowd b crowd') :
    crowd'.Apart R := by
  intro i j m n differ first second
  obtain ⟨m', earlier, same⟩ := goes_order goes first
  obtain ⟨n', earlier', same'⟩ := goes_order goes second
  rw [← same, ← same']
  exact apart i j m' n' differ earlier earlier'

theorem start_runs (named : Registry.Named c.registry.agents) (begun : (o.start c).swap = .ok s) : o.Runs s := by
  obtain ⟨fits, phase⟩ := Call.start_fits begun
  refine ⟨Swap.begun_onCourse begun, Swap.begun_grounded named begun, fits.context, fits.oldName, fits.newName,
    fits.changes, ?_⟩
  simp [phase]

theorem moves_runs {around : Surroundings} {heard : Except Error (Option Message)}
    (named : Registry.Named c.registry.agents) (runs : o.Runs s) (moves : Swap.Moves s c around heard s' c') :
    o.Runs s' := by
  have terms := Swap.moves_terms moves
  simp only [Swap.terms, Session.heading, Prod.mk.injEq] at terms
  obtain ⟨context, _, changes, _, oldName, newName, _⟩ := terms
  exact ⟨Swap.moves_onCourse runs.course moves, Swap.moves_grounded named runs.grounded moves,
    context.trans runs.context, oldName.trans runs.oldName, newName.trans runs.newName, changes.trans runs.changes,
    Swap.moves_paused runs.course runs.paused moves⟩

theorem put_sane (sane : Sane crowd) (there : crowd.Has i m) (named : Registry.Named c.registry.agents)
    {swap : Except Error Swap} (own : ∀ s, swap = .ok s → m.order.Runs s) : Sane (crowd.put i (m.call swap) c) := by
  refine ⟨named, fun j x found s begun => ?_⟩
  rw [has_put there] at found
  split at found
  · subst found
    exact own s (Option.some.inj begun)
  · exact sane.runs j x found s begun

theorem goes_sane (sane : Sane crowd) (goes : Goes crowd b crowd') : Sane crowd' := by
  cases goes with
  | stayed => exact sane
  | placed there fresh => exact put_sane sane there sane.named fun s begun => start_runs sane.named begun
  | moved there begun moves =>
    have runs := sane.runs _ _ there _ begun
    have edits := Swap.moves_edits sane.named runs.grounded moves
    refine put_sane sane there (edits.named runs.grounded sane.named) ?_
    rintro _ ⟨⟩
    exact moves_runs sane.named runs moves

theorem goes_made (made : crowd.coordinator.registry.Made) (goes : Goes crowd b crowd') :
    crowd'.coordinator.registry.Made := by
  cases goes with
  | stayed | placed => exact made
  | moved _ _ moves => exact Swap.moves_made made moves

theorem gather_sane (named : Registry.Named c.registry.agents) (orders : List Order) : (gather orders c).Sane := by
  refine ⟨named, fun i m there s begun => ?_⟩
  rw [(gather_fresh there).1] at begun
  cases begun

end Crowd
end Handover
