import Handover.Proofs.Swap.Entries

/-!
# Calls among others

A call to replace an agent goes on turn by turn, and between its turns others do what they like with the
coordinator. `Always` says of every turn of such a run what may happen there, `Sometime` of one of them; what
a swap keeps at its own turns and others leave alone holds after any run: `play_keeps`.
-/

namespace Handover

/-- What a call to replace an agent asks for. -/
structure Order where
  context : Context
  oldName : String
  newName : String
  changes : Table Json := []
  /-- No key is given twice. -/
  distinct : changes.names.Nodup := by decide
  /-- The id that the session of the swap gets. -/
  session : String
  placed : Instant

inductive Turn where
  /-- The call goes on, with what the bus gave if it waits for that. -/
  | own (around : Surroundings) (heard : Except Error (Option Message))
  /-- Others leave the coordinator like this. -/
  | others (coordinator : Coordinator)

def Turn.isOwn : Turn → Bool
  | .own .. => true
  | .others _ => false

inductive Outcome where
  | completed (session : Session)
  /-- There is no session if the swap was not begun. -/
  | failed (error : Error) (session : Option Session)

def Outcome.session? : Outcome → Option Session
  | .completed session => some session
  | .failed _ session => session

structure Call where
  /-- The swap, or why it was refused. -/
  swap : Except Error Swap
  coordinator : Coordinator

def Order.start (o : Order) (c : Coordinator) : Call where
  swap := Swap.begin? c.registry o.context o.oldName o.newName o.changes o.session o.placed
  coordinator := c

namespace Call

def agents (call : Call) : Table Registration := call.coordinator.registry.agents

def turn (call : Call) : Turn → Call
  | .own around heard =>
    match call.swap with
    | .error _ => call
    | .ok s =>
      let (s, c) := s.advance call.coordinator around heard
      { swap := .ok s, coordinator := c }
  | .others c => { call with coordinator := c }

def play (call : Call) (turns : List Turn) : Call := turns.foldl turn call

def outcome? (call : Call) : Option Outcome :=
  match call.swap with
  | .error e => some (.failed e none)
  | .ok s =>
    if s.isOver then
      match s.error with
      | none => some (.completed s.session)
      | some e => some (.failed e (some s.session))
    else none

/-- At every turn `P` holds of the call before it. -/
def Always (P : Call → Turn → Prop) : Call → List Turn → Prop
  | _, [] => True
  | call, t :: rest => P call t ∧ Always P (call.turn t) rest

def Sometime (P : Call → Turn → Prop) : Call → List Turn → Prop
  | _, [] => False
  | call, t :: rest => P call t ∨ Sometime P (call.turn t) rest

/-- Others leave alone what is under these names. -/
def Spares (names : List String) (call : Call) : Turn → Prop
  | .own .. => True
  | .others c => ∀ name ∈ names, c.registry.agents.get? name = call.agents.get? name

/-- What the call itself does to the agents at a turn is as `P` says. -/
def Does (P : Table Registration → Table Registration → Prop) (call : Call) : Turn → Prop
  | .own around heard => P call.agents (call.turn (.own around heard)).agents
  | .others _ => True

variable {call : Call} {turns : List Turn} {P Q : Call → Turn → Prop} {I : Swap → Coordinator → Prop}

@[simp]
theorem play_nil (call : Call) : call.play [] = call := rfl

@[simp]
theorem play_cons (call : Call) (t : Turn) (rest : List Turn) :
    call.play (t :: rest) = (call.turn t).play rest := rfl

theorem turn_refused (refused : call.swap = .error e) (t : Turn) : (call.turn t).swap = .error e := by
  cases t with
  | own around heard => simp [turn, refused]
  | others c => exact refused

theorem play_refused (refused : call.swap = .error e) (turns : List Turn) : (call.play turns).swap = .error e := by
  induction turns generalizing call with
  | nil => exact refused
  | cons t rest ih => exact ih (turn_refused refused t)

theorem turn_own {s : Swap} (begun : call.swap = .ok s) (around : Surroundings)
    (heard : Except Error (Option Message)) :
    call.turn (.own around heard) =
      ⟨.ok (s.advance call.coordinator around heard).1, (s.advance call.coordinator around heard).2⟩ := by
  simp [turn, begun]

theorem turn_begun {s : Swap} (begun : call.swap = .ok s) (t : Turn) : ∃ s', (call.turn t).swap = .ok s' := by
  cases t with
  | own around heard => exact ⟨_, congrArg swap (turn_own begun around heard)⟩
  | others c => exact ⟨s, begun⟩

theorem play_begun {s : Swap} (begun : call.swap = .ok s) (turns : List Turn) :
    ∃ s', (call.play turns).swap = .ok s' := by
  induction turns generalizing call s with
  | nil => exact ⟨s, begun⟩
  | cons t rest ih =>
    obtain ⟨s', later⟩ := turn_begun begun t
    exact ih later

def Holds (I : Swap → Coordinator → Prop) (call : Call) : Prop :=
  ∀ s, call.swap = .ok s → I s call.coordinator

/-- What is kept by the turns of a swap, and by what others may do. -/
structure Keeps (P : Call → Turn → Prop) (I : Swap → Coordinator → Prop) : Prop where
  own : ∀ s c around heard s' c', I s c → P ⟨.ok s, c⟩ (.own around heard) →
    Swap.Moves s c around heard s' c' → I s' c'
  others : ∀ s c c', I s c → P ⟨.ok s, c⟩ (.others c') → I s c'

theorem turn_keeps {t : Turn} (keeps : Keeps P I) (held : call.Holds I) (may : P call t) :
    (call.turn t).Holds I := by
  obtain ⟨swap, c⟩ := call
  intro s' now
  cases swap with
  | error e =>
    rw [turn_refused rfl] at now
    cases now
  | ok s =>
    cases t with
    | own around heard =>
      cases now
      exact keeps.own s c around heard _ _ (held s rfl) may Swap.advance_moves
    | others c' =>
      cases now
      exact keeps.others s' c c' (held s' rfl) may

theorem play_keeps (keeps : Keeps P I) (held : call.Holds I) (always : call.Always P turns) :
    (call.play turns).Holds I := by
  induction turns generalizing call with
  | nil => exact held
  | cons t rest ih => exact ih (turn_keeps keeps held always.1) always.2

theorem always_of_keeps (keeps : Keeps P I) (each : ∀ call t, call.Holds I → P call t → Q call t)
    (held : call.Holds I) (always : call.Always P turns) : call.Always Q turns := by
  induction turns generalizing call with
  | nil => trivial
  | cons t rest ih => exact ⟨each call t held always.1, ih (turn_keeps keeps held always.1) always.2⟩

theorem always_of_mem (each : ∀ call, ∀ t ∈ turns, P call t) (call : Call) : call.Always P turns := by
  induction turns generalizing call with
  | nil => trivial
  | cons t rest ih => exact ⟨each call t (.head _), ih (fun call t there => each call t (.tail _ there)) _⟩

theorem always_true (call : Call) (turns : List Turn) : call.Always (fun _ _ => True) turns :=
  always_of_mem (fun _ _ _ => trivial) call

theorem Always.imp (follows : ∀ call t, P call t → Q call t) (always : call.Always P turns) :
    call.Always Q turns := by
  induction turns generalizing call with
  | nil => trivial
  | cons t rest ih => exact ⟨follows call t always.1, ih always.2⟩

theorem Always.and (first : call.Always P turns) (second : call.Always Q turns) :
    call.Always (fun call t => P call t ∧ Q call t) turns := by
  induction turns generalizing call with
  | nil => trivial
  | cons t rest ih => exact ⟨⟨first.1, second.1⟩, ih first.2 second.2⟩

theorem refused_spares {names : List String} {name : String} (refused : call.swap = .error e)
    (spared : call.Always (Spares names) turns) (there : name ∈ names) :
    (call.play turns).agents.get? name = call.agents.get? name := by
  induction turns generalizing call with
  | nil => rfl
  | cons t rest ih =>
    rw [play_cons, ih (turn_refused refused t) spared.2]
    cases t with
    | own around heard => simp [turn, refused]
    | others c => exact spared.1 name there

theorem play_had {J : Swap → Prop} {s s' : Swap}
    (keeps : ∀ s c around heard s' c', J s → Swap.Moves s c around heard s' c' → J s')
    (begun : call.swap = .ok s) (had : J s) (ends : (call.play turns).swap = .ok s') : J s' := by
  have held : call.Holds fun s _ => J s := by
    intro s' same
    rw [begun] at same
    cases same
    exact had
  have kept : Keeps (fun _ _ => True) fun s _ => J s :=
    ⟨fun s c around heard s' c' had _ => keeps s c around heard s' c' had, fun _ _ _ had _ => had⟩
  exact play_keeps kept held (always_true call turns) s' ends

theorem always_before {J : Swap → Prop}
    (keeps : ∀ s c around heard s' c', J s → Swap.Moves s c around heard s' c' → J s')
    (ends : ∀ s, (call.play turns).swap = .ok s → ¬ J s) :
    call.Always (fun call t => ∀ s, (call.turn t).swap = .ok s → ¬ J s) turns := by
  induction turns generalizing call with
  | nil => trivial
  | cons t rest ih =>
    refine ⟨?_, ih ends⟩
    -- Had the swap `J` after this turn, it would have it after the rest of the run.
    intro s next had
    obtain ⟨s', last⟩ := play_begun next rest
    exact ends s' last (play_had keeps next had last)

/-- What comes about at turns of one kind only and never goes away came about at such a turn. -/
theorem play_iff_sometime {J : Call → Prop}
    (each : call.Always (fun call t => J (call.turn t) ↔ J call ∨ Q call t) turns) :
    J (call.play turns) ↔ J call ∨ call.Sometime Q turns := by
  induction turns generalizing call with
  | nil => simp [Sometime]
  | cons t rest ih =>
    have first : J (call.turn t) ↔ J call ∨ Q call t := each.1
    rw [play_cons, ih each.2, first, or_assoc, Sometime]

theorem outcome_refused (refused : call.swap = .error e) : call.outcome? = some (.failed e none) := by
  simp [outcome?, refused]

theorem outcome_over {s : Swap} (begun : call.swap = .ok s) (atEnd : s.isOver = true) :
    call.outcome? = some (match s.error with
      | none => .completed s.session
      | some e => .failed e (some s.session)) := by
  cases error : s.error <;> simp [outcome?, begun, atEnd, error]

theorem outcome_begun {s : Swap} {outcome : Outcome} (begun : call.swap = .ok s)
    (ended : call.outcome? = some outcome) :
    s.isOver = true ∧ outcome = match s.error with
      | none => Outcome.completed s.session
      | some e => .failed e (some s.session) := by
  cases atEnd : s.isOver with
  | false => simp [outcome?, begun, atEnd] at ended
  | true =>
    rw [outcome_over begun atEnd] at ended
    exact ⟨rfl, (Option.some.inj ended).symm⟩

theorem failed_cases {session : Option Session} (ended : call.outcome? = some (.failed e session)) :
    (call.swap = .error e ∧ session = none) ∨
      ∃ s, call.swap = .ok s ∧ s.isOver = true ∧ s.error = some e ∧ session = some s.session := by
  cases begun : call.swap with
  | error e' =>
    rw [outcome_refused begun] at ended
    cases ended
    exact .inl ⟨rfl, rfl⟩
  | ok s =>
    obtain ⟨atEnd, given⟩ := outcome_begun begun ended
    cases error : s.error with
    | none => simp [error] at given
    | some e' =>
      simp only [error, Outcome.failed.injEq] at given
      obtain ⟨rfl, rfl⟩ := given
      exact .inr ⟨s, rfl, atEnd, error, rfl⟩

theorem completed_cases {session : Session} (ended : call.outcome? = some (.completed session)) :
    ∃ s, call.swap = .ok s ∧ s.isOver = true ∧ s.error = none ∧ session = s.session := by
  cases begun : call.swap with
  | error e =>
    rw [outcome_refused begun] at ended
    cases ended
  | ok s =>
    obtain ⟨atEnd, given⟩ := outcome_begun begun ended
    cases error : s.error with
    | none =>
      simp only [error, Outcome.completed.injEq] at given
      exact ⟨s, rfl, atEnd, error, given⟩
    | some e => simp [error] at given

end Call

/-! ## Calls for an order -/

/-- The swap is the one that was begun for the order, on a coordinator as it was then. -/
structure Order.Fits (o : Order) (c : Coordinator) (s : Swap) : Prop where
  old : c.registry.agents.get? o.oldName = some s.old
  context : s.context = o.context
  changes : s.changes = o.changes
  id : s.session.id = o.session
  oldName : s.session.oldName = o.oldName
  newName : s.session.newName = o.newName
  startedAt : s.session.startedAt = o.placed

/-- The names make sense, and the old agent is there. -/
structure Order.Sound (o : Order) (c : Coordinator) : Prop where
  given : o.newName ≠ ""
  differ : o.newName ≠ o.oldName
  found : c.registry.agents.get? o.oldName ≠ none

/-- What a call keeps while nobody else writes the entries of its two names. -/
structure Order.Kept (o : Order) (c : Coordinator) (s : Swap) (c' : Coordinator) : Prop where
  order : Swap.InOrder (c.registry.agents.get? o.newName) s c'.registry.agents
  fits : o.Fits c s

namespace Call
variable {o : Order} {c c' : Coordinator} {s s' : Swap} {turns : List Turn} {around : Surroundings}
  {heard : Except Error (Option Message)}

theorem unsound_iff :
    ¬ o.Sound c ↔ o.newName = "" ∨ o.newName = o.oldName ∨ c.registry.agents.get? o.oldName = none := by
  constructor
  · intro unsound
    by_cases nameless : o.newName = ""
    · exact .inl nameless
    by_cases same : o.newName = o.oldName
    · exact .inr (.inl same)
    cases found : c.registry.agents.get? o.oldName with
    | none => exact .inr (.inr rfl)
    | some old => exact (unsound ⟨nameless, same, by simp [found]⟩).elim
  · rintro (nameless | same | missing) sound
    · exact sound.given nameless
    · exact sound.differ same
    · exact sound.found missing

theorem start_refused_iff : (∃ e, (o.start c).swap = .error e) ↔ ¬ o.Sound c := by
  simp only [Order.start, Swap.begin?]
  split
  · rename_i nameless
    exact ⟨fun _ sound => sound.given nameless, fun _ => ⟨_, rfl⟩⟩
  split
  · rename_i same
    exact ⟨fun _ sound => sound.differ same, fun _ => ⟨_, rfl⟩⟩
  split
  · rename_i missing
    exact ⟨fun _ sound => sound.found missing, fun _ => ⟨_, rfl⟩⟩
  · rename_i given differ _ old found
    refine ⟨nofun, fun unsound => ?_⟩
    exact (unsound ⟨given, differ, by simp [found]⟩).elim

theorem sound_of_ends (ends : ((o.start c).play turns).swap = .ok s) : o.Sound c := by
  cases begun : (o.start c).swap with
  | error e =>
    rw [play_refused begun] at ends
    cases ends
  | ok s₀ =>
    apply Classical.byContradiction
    intro unsound
    obtain ⟨e, refused⟩ := start_refused_iff.mpr unsound
    rw [begun] at refused
    cases refused

theorem start_fits (begun : (o.start c).swap = .ok s) : o.Fits c s ∧ s.phase = .opening := by
  obtain ⟨_, _, old, found, rfl⟩ := Swap.begin?_cases begun
  exact ⟨⟨found, rfl, rfl, rfl, rfl, rfl, rfl⟩, rfl⟩

theorem moves_fits (fits : o.Fits c s) (moves : Swap.Moves s c' around heard s' c'') : o.Fits c s' := by
  have terms := Swap.moves_terms moves
  simp only [Swap.terms, Session.heading, Prod.mk.injEq] at terms
  obtain ⟨context, old, changes, id, oldName, newName, startedAt⟩ := terms
  exact ⟨old ▸ fits.old, context.trans fits.context, changes.trans fits.changes, id.trans fits.id,
    oldName.trans fits.oldName, newName.trans fits.newName, startedAt.trans fits.startedAt⟩

theorem keeps_fits : Keeps (fun _ _ => True) fun s _ => o.Fits c s :=
  ⟨fun _ _ _ _ _ _ fits _ moves => moves_fits fits moves, fun _ _ _ fits _ => fits⟩

theorem always_fits (o : Order) (c : Coordinator) (turns : List Turn) :
    (o.start c).Always (fun call _ => call.Holds fun s _ => o.Fits c s) turns :=
  always_of_keeps keeps_fits (fun _ _ fits _ => fits) (fun _ begun => (start_fits begun).1) (always_true _ turns)

theorem start_onCourse (o : Order) (c : Coordinator) : (o.start c).Holds fun s _ => Swap.OnCourse s := by
  intro s begun
  exact Swap.begun_onCourse begun

theorem keeps_onCourse : Keeps (fun _ _ => True) fun s _ => Swap.OnCourse s :=
  ⟨fun _ _ _ _ _ _ on _ moves => Swap.moves_onCourse on moves, fun _ _ _ on _ => on⟩

theorem play_onCourse (o : Order) (c : Coordinator) (turns : List Turn) :
    ((o.start c).play turns).Holds fun s _ => Swap.OnCourse s :=
  play_keeps keeps_onCourse (start_onCourse o c) (always_true _ turns)

theorem always_onCourse (o : Order) (c : Coordinator) (turns : List Turn) :
    (o.start c).Always (fun call _ => call.Holds fun s _ => Swap.OnCourse s) turns :=
  always_of_keeps keeps_onCourse (fun _ _ on _ => on) (start_onCourse o c) (always_true _ turns)

theorem start_kept (made : c.registry.Made) : (o.start c).Holds (o.Kept c) := by
  intro s begun
  exact ⟨Swap.begun_inOrder made begun, (start_fits begun).1⟩

theorem own_kept (kept : o.Kept c s c') (moves : Swap.Moves s c' around heard s' c'') : o.Kept c s' c'' :=
  ⟨Swap.moves_inOrder kept.order moves, moves_fits kept.fits moves⟩

theorem others_kept {others : Coordinator} (kept : o.Kept c s c')
    (spared : Spares [o.oldName, o.newName] ⟨.ok s, c'⟩ (.others others)) : o.Kept c s others := by
  have stands := kept.order.stands.elsewhere others.registry.agents
    (by rw [kept.fits.oldName]; exact spared o.oldName (by simp))
    (by rw [kept.fits.newName]; exact spared o.newName (by simp))
  exact ⟨{ kept.order with stands }, kept.fits⟩

theorem keeps_kept : Keeps (Spares [o.oldName, o.newName]) (o.Kept c) :=
  ⟨fun _ _ _ _ _ _ kept _ moves => own_kept kept moves, fun _ _ _ kept spared => others_kept kept spared⟩

theorem play_kept (made : c.registry.Made)
    (spared : (o.start c).Always (Spares [o.oldName, o.newName]) turns) :
    ((o.start c).play turns).Holds (o.Kept c) :=
  play_keeps keeps_kept (start_kept made) spared

theorem always_kept (made : c.registry.Made)
    (spared : (o.start c).Always (Spares [o.oldName, o.newName]) turns) :
    (o.start c).Always (fun call _ => call.Holds (o.Kept c)) turns :=
  always_of_keeps keeps_kept (fun _ _ kept _ => kept) (start_kept made) spared

theorem play_nearer {call : Call} (begun : call.swap = .ok s) (turns : List Turn) :
    ∃ s', (call.play turns).swap = .ok s' ∧
      s'.phase.turnsLeft ≤ s.phase.turnsLeft - turns.countP Turn.isOwn := by
  induction turns generalizing call s with
  | nil => exact ⟨s, begun, Nat.le_refl _⟩
  | cons t rest ih =>
    cases t with
    | own around heard =>
      have later := turn_own begun around heard
      obtain ⟨s', ends, nearer⟩ := ih (congrArg swap later)
      have moved := Swap.moves_nearer (@Swap.advance_moves s call.coordinator around heard)
      refine ⟨s', ends, Nat.le_trans nearer ?_⟩
      simp only [List.countP_cons, Turn.isOwn, if_true]
      omega
    | others c =>
      have later : (call.turn (.others c)).swap = .ok s := begun
      obtain ⟨s', ends, nearer⟩ := ih later
      exact ⟨s', ends, by simpa [Turn.isOwn] using nearer⟩

theorem play_returns (o : Order) (c : Coordinator)
    (enough : SwapPhase.opening.turnsLeft ≤ turns.countP Turn.isOwn) :
    ((o.start c).play turns).outcome?.isSome = true := by
  cases begun : (o.start c).swap with
  | error e => simp [outcome_refused (play_refused begun turns)]
  | ok s =>
    obtain ⟨s', ends, nearer⟩ := play_nearer begun turns
    have most := s.phase.turnsLeft_le
    have atEnd := Swap.over_of_turnsLeft (play_onCourse o c turns s' ends) (by omega)
    simp [outcome_over ends atEnd]

theorem always_spares (names : List String) (own : ∀ t ∈ turns, t.isOwn = true) (call : Call) :
    call.Always (Spares names) turns := by
  refine always_of_mem (fun call t there => ?_) call
  cases t with
  | own => trivial
  | others c => exact nomatch own (.others c) there

end Call

/-! ## A call to look at -/

namespace Sample

def elder : Registration := .new "elder" "worker" ⟨0, 0⟩

/-- An agent with something to lose. -/
def worker : Registration :=
  { elder with
    version := "1.4"
    capabilities := ["watch"]
    state := {
      memory := [("mood", .str "steady")]
      pendingTasks := [{ id := "task", taskType := "watch", priority := 1, createdAt := ⟨0, 0⟩ }]
      configuration := [("mode", .str "day"), ("zone", .str "north")]
      metrics := { Metrics.fresh with total := 3, successful := 2, failed := 1 } } }

/-- What the name of the new agent stands for before the call. -/
def earlier : Registration :=
  { Registration.new "heir" "keeper" ⟨0, 0⟩ with state := { memory := [("keys", .int 7)] } }

def coordinator : Coordinator := { registry := (({} : Registry).store worker).store earlier }

/-- The configuration of the swap overrides a key of the old agent's, adds one, and has one that is reserved. -/
def order : Order where
  context := { token := 0 }
  oldName := "elder"
  newName := "heir"
  changes := [("mode", .str "night"), ("pace", .int 2), ("type", .str "watcher")]
  session := "swap"
  placed := ⟨1, 0⟩

def own (heard : Except Error (Option Message)) : Turn := .own { time := ⟨2, 0⟩ } heard

/-- The call goes on until it is over. What it asks comes to this. -/
def onward (heard : Except Error (Option Message)) : List Turn :=
  List.replicate 13 (own (.ok none)) ++ own heard :: List.replicate 12 (own (.ok none))

/-- Others enter a third agent before the call goes on. -/
def turns (heard : Except Error (Option Message)) : List Turn :=
  .others { coordinator with registry := coordinator.registry.store (.new "third" "worker" ⟨0, 0⟩) } :: onward heard

/-- Nobody listens for the new agent. -/
def unanswered : Except Error (Option Message) := .error (.communication "no responders on agents.heir.control")

def alive : Message where
  id := "1"
  sender := "heir"
  recipient := coordinatorName
  topic := controlTopic
  payload := Reply.ok.encode
  sentAt := ⟨2, 0⟩

theorem made : coordinator.registry.Made :=
  .restore (.restore .empty (Registry.restore_eq {} worker (by decide))) (Registry.restore_eq _ earlier (by decide))

theorem onward_cases {heard : Except Error (Option Message)} {t : Turn} (there : t ∈ onward heard) :
    t = own (.ok none) ∨ t = own heard := by
  rcases List.mem_append.mp there with there | there
  · exact .inl (List.eq_of_mem_replicate there)
  rcases List.mem_cons.mp there with rfl | there
  · exact .inr rfl
  · exact .inl (List.eq_of_mem_replicate there)

theorem spared (heard : Except Error (Option Message)) :
    (order.start coordinator).Always (Call.Spares [order.oldName, order.newName]) (turns heard) := by
  refine ⟨?_, Call.always_spares _ ?_ _⟩
  · intro name there
    simp only [List.mem_cons, List.not_mem_nil, or_false] at there
    rcases there with rfl | rfl <;> rfl
  · intro t there
    rcases onward_cases there with rfl | rfl <;> rfl

end Sample
end Handover
