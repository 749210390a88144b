import Handover.Agent.Runtime

/-!
# What a runtime makes of its messages

The flag of a runtime is a fold over the messages that it took: it is paused if the last pause or resume among them was a
pause, `foldl_pauses_iff`.
-/

namespace Handover

namespace Message

/-- What a runtime makes of its flag when it takes the message. -/
def pauses (m : Message) (paused : Bool) : Bool :=
  match m.decodePayload Command.decode with
  | .ok .pause => true
  | .ok .resume => false
  | .ok .ping | .error _ => paused

/-- The message is a ping. -/
def isPing (m : Message) : Bool :=
  match m.decodePayload Command.decode with
  | .ok .ping => true
  | .ok .pause | .ok .resume | .error _ => false

/-- The message says whether the agent is to be paused. -/
def Toggles (m : Message) : Prop :=
  m.decodePayload Command.decode = .ok .pause ∨ m.decodePayload Command.decode = .ok .resume

variable {m m' : Message} {letters : List Message} {paused : Bool}

theorem pauses_payload (same : m'.payload = m.payload) (paused : Bool) : m'.pauses paused = m.pauses paused := by
  unfold pauses decodePayload
  rw [same]
  cases Decode.ofJson Command.decode m.payload <;> rfl

/-- The flag is what the message says, or what it was. -/
theorem pauses_cases (m : Message) (paused : Bool) :
    m.decodePayload Command.decode = .ok .pause ∧ m.pauses paused = true ∨
      m.decodePayload Command.decode = .ok .resume ∧ m.pauses paused = false ∨
        ¬ m.Toggles ∧ m.pauses paused = paused := by
  unfold pauses Toggles
  cases m.decodePayload Command.decode with
  | error e => exact .inr (.inr ⟨by simp, rfl⟩)
  | ok command =>
    cases command with
    | pause => exact .inl ⟨rfl, rfl⟩
    | resume => exact .inr (.inl ⟨rfl, rfl⟩)
    | ping => exact .inr (.inr ⟨by simp, rfl⟩)

theorem foldl_pauses_iff : letters.foldl (fun paused m => m.pauses paused) paused = true ↔
    (∃ earlier m later, letters = earlier ++ m :: later ∧ m.decodePayload Command.decode = .ok .pause ∧
      ∀ m' ∈ later, ¬ m'.Toggles) ∨ paused = true ∧ ∀ m ∈ letters, ¬ m.Toggles := by
  induction letters generalizing paused with
  | nil => simp
  | cons m rest ih =>
    rw [List.foldl_cons, ih]
    constructor
    · rintro (⟨earlier, m', later, rfl, pause, quiet⟩ | ⟨flag, quiet⟩)
      · exact .inl ⟨m :: earlier, m', later, rfl, pause, quiet⟩
      · rcases pauses_cases m paused with ⟨pause, _⟩ | ⟨_, resumed⟩ | ⟨idle, same⟩
        · exact .inl ⟨[], m, rest, rfl, pause, quiet⟩
        · cases resumed.symm.trans flag
        · exact .inr ⟨same.symm.trans flag, List.forall_mem_cons.mpr ⟨idle, quiet⟩⟩
    · rintro (⟨earlier, m', later, split, pause, quiet⟩ | ⟨flag, quiet⟩)
      · cases earlier with
        | nil =>
          cases split
          have flag : m.pauses paused = true := by rw [pauses, pause]
          exact .inr ⟨flag, quiet⟩
        | cons first earlier =>
          cases split
          exact .inl ⟨earlier, m', later, rfl, pause, quiet⟩
      · obtain ⟨idle, quiet'⟩ := List.forall_mem_cons.mp quiet
        rcases pauses_cases m paused with ⟨pause, _⟩ | ⟨resume, _⟩ | ⟨_, same⟩
        · exact absurd (.inl pause) idle
        · exact absurd (.inr resume) idle
        · exact .inr ⟨same.trans flag, quiet'⟩

end Message

namespace AgentRuntime
variable {a : AgentRuntime} {queue : List Message} {m : Message}

/-- Whether the runtime is paused once it has handled these messages. -/
def pausedAfter (a : AgentRuntime) (queue : List Message) : Bool :=
  queue.foldl (fun paused m => m.pauses paused) a.paused

theorem pausedAfter_concat : a.pausedAfter (queue ++ [m]) = m.pauses (a.pausedAfter queue) := by
  rw [pausedAfter, List.foldl_append]
  rfl

theorem receive_paused : (a.receive m).1.paused = m.pauses a.paused := by
  unfold receive Message.pauses
  split <;> simp_all

theorem receive_pings : (a.receive m).1.pings = a.pings := by
  unfold receive
  split <;> rfl

theorem receive_wanted : (a.receive m).2 = m.isPing := by
  unfold receive Message.isPing
  split <;> simp_all

theorem receive_undecoded {e : Error} (garbled : m.decodePayload Command.decode = .error e) :
    a.receive m = (a, false) := by
  rw [receive, garbled]

theorem receive_pausedAfter : (a.receive m).1.pausedAfter queue = a.pausedAfter (m :: queue) := by
  rw [pausedAfter, receive_paused]
  rfl

theorem answered_paused (result : Except Error Unit) : (a.answered result).paused = a.paused := by
  cases result <;> rfl

theorem answered_pausedAfter (result : Except Error Unit) :
    (a.answered result).pausedAfter queue = a.pausedAfter queue := by
  rw [pausedAfter, answered_paused]
  rfl

end AgentRuntime
end Handover
