import Handover.Session.Wire
import Handover.Message
import Handover.Proofs.Agent.Wire

/-!
# Sessions and messages are read as they were written

A member that is left out when there is nothing to say, as the error, leaves the record as it is.
-/

namespace Handover

namespace Span
variable {s : Span} {depth : Nat}

theorem Proper.legible (proper : s.Proper) : (Json.ofSpan s).Legible := by
  have nanos := proper.nanos
  have seconds := proper.seconds
  have wide : billion ≤ Nat.pow 2 64 := by decide
  have ordered : ["nanos", "secs"].Pairwise (· < ·) := by decide
  refine .obj ordered ?_
  simp only [List.forall_mem_cons, List.not_mem_nil, IsEmpty.forall_iff, implies_true, and_true]
  exact ⟨.int (by omega) (by omega), .int (by omega) (by omega)⟩

theorem Proper.decode (proper : s.Proper) (shallow : depth < Decode.depthLimit) :
    Decode.span depth (Json.ofSpan s).draft = .ok s := by
  have seconds := proper.seconds
  have full : s.nanos / billion = 0 := Nat.div_eq_of_lt proper.nanos
  have rest : s.nanos % billion = s.nanos := Nat.mod_eq_of_lt proper.nanos
  have nanos : s.nanos < Nat.pow 2 32 := Nat.lt_trans proper.nanos (by decide)
  have takes : Decode.spanShape.Takes (depth + 1) Decode.spanShape.start []
      [("nanos", .int s.nanos), ("secs", .int s.seconds)] s ["secs", "nanos"] :=
    .field rfl (by decide) (Decode.put_ok (Decode.nat_draft _ nanos) _) <|
    .field rfl (by decide) (Decode.put_ok (Decode.nat_draft _ seconds) _) .nil
  have decoded : Decode.spanShape.decode depth (Json.ofSpan s).draft = .ok s :=
    Shape.decode_takes takes shallow (by decide)
  rw [Decode.span, decoded]
  simp only [bind, Except.bind, full, rest, Nat.add_zero, if_neg (Nat.not_le.mpr seconds)]
  rfl

end Span

theorem Decode.spanOption_draft {o : Option Span} {depth : Nat} (proper : ∀ s ∈ o, s.Proper)
    (shallow : depth + (Json.ofOption Json.ofSpan o).nesting ≤ depthLimit) :
    option span depth (Json.ofOption Json.ofSpan o).draft = .ok o := by
  refine option_draft (fun s there => (proper s there).decode ?_) fun _ => nofun
  have nested : 0 < (Json.ofOption Json.ofSpan o).nesting := by
    rw [there]
    exact Nat.succ_pos _
  omega

theorem Draft.reads_omissible {name : String} {o : Option String} {e : String × Json}
    (member : Option String → List (String × Json)) (absent : member none = [])
    (present : ∀ t, member (some t) = [(name, .str t)]) (there : e ∈ member o) : Reads e.2 := by
  cases o with
  | none =>
    rw [absent] at there
    cases there
  | some t =>
    rw [present] at there
    cases List.mem_singleton.mp there
    exact reads_str t

/-- A text that there may be none of is read, whether its member is there or not. -/
theorem Shape.takes_omissible {α : Type} {s : Shape α} {depth : Nat} {last : α} {name : String} {o : Option String}
    {members : List (String × Json)} {later done : List String} (seen : List String)
    (member : Option String → List (String × Json)) (head : Option String → α) (known : s.knows name = true)
    (absent : member none = []) (present : ∀ t, member (some t) = [(name, .str t)])
    (put : ∀ t, s.put name (head none) depth (.str t) = .ok (head (some t)))
    (fresh : ∀ other ∈ name :: later, other ∉ seen) (apart : name ∉ later)
    (rest : ∀ seen, (∀ other ∈ later, other ∉ seen) → s.Takes depth (head o) seen members last (done ++ seen)) :
    ∃ also, s.Takes depth (head none) seen (member o ++ members) last (done ++ (also ++ seen)) := by
  have fresh' : ∀ other ∈ later, other ∉ seen := fun other there => fresh other (.tail _ there)
  cases o with
  | none =>
    rw [absent]
    exact ⟨[], rest seen fresh'⟩
  | some t =>
    rw [present]
    refine ⟨[name], .field known (fresh name (.head _)) (put t) (rest _ fun other there => ?_)⟩
    rw [List.mem_cons, not_or]
    exact ⟨fun same => apart (same ▸ there), fresh' other there⟩

theorem StepStatus.decode_text (s : StepStatus) (depth : Nat) : decode depth (Json.str s.text).draft = .ok s := by
  cases s <;> rfl

theorem SwapStatus.decode_text (s : SwapStatus) (depth : Nat) : decode depth (Json.str s.text).draft = .ok s := by
  cases s <;> rfl

namespace SwapStep
variable {s : SwapStep} {depth : Nat}

structure Legible (s : SwapStep) : Prop where
  startedAt : s.startedAt.Legible
  completedAt : ∀ t ∈ s.completedAt, t.Legible
  duration : ∀ d ∈ s.duration, d.Proper

theorem reads (legible : s.Legible) : Draft.Reads s.encode := by
  refine Draft.reads_obj ?_
  simp only [List.forall_mem_append, List.forall_mem_cons, List.not_mem_nil, IsEmpty.forall_iff, implies_true, and_true]
  exact ⟨⟨⟨Draft.reads_option fun t _ => Draft.reads_str _,
    Draft.reads_option fun d there => Draft.reads_legible (legible.duration d there).legible⟩,
    fun m there => Draft.reads_omissible errorMember rfl (fun _ => rfl) there⟩, Draft.reads_str _, Draft.reads_str _, Draft.reads_str _⟩

theorem decode_encode (legible : s.Legible) (shallow : depth + s.encode.nesting ≤ Decode.depthLimit) :
    decode depth s.encode.draft = .ok s := by
  have duration : (Json.ofOption Json.ofSpan s.duration).nesting < s.encode.nesting :=
    Json.nesting_member (m := ("duration", .ofOption .ofSpan s.duration)) (by simp)
  have rest : ∀ seen, (∀ name ∈ ["name", "started_at", "status"], name ∉ seen) →
      shape.Takes (depth + 1)
        { shape.start with completedAt := s.completedAt, duration := s.duration, error := s.error } seen
        [("name", .str s.name), ("started_at", .ofInstant s.startedAt), ("status", .str s.status.text)] s
        (["status", "started_at", "name"] ++ seen) :=
    fun seen fresh =>
      .field rfl (by simp [fresh]) (Decode.put_ok rfl _) <|
      .field rfl (by simp [fresh]) (Decode.put_ok (Decode.instant_draft legible.startedAt) _) <|
      .field rfl (by simp [fresh]) (Decode.put_ok (StepStatus.decode_text _ _) _) .nil
  obtain ⟨also, takes⟩ := Shape.takes_omissible ["duration", "completed_at"] errorMember
    (fun error => { shape.start with completedAt := s.completedAt, duration := s.duration, error }) rfl rfl
    (fun _ => rfl) (fun _ => Decode.put_ok rfl _) (by decide) (by decide) rest
  exact Shape.decode_takes
    (.field rfl (by decide) (Decode.put_ok (Decode.instantOption_draft legible.completedAt) _) <|
      .field rfl (by decide) (Decode.put_ok (Decode.spanOption_draft legible.duration (by omega)) _) takes)
    (by omega) (by simp [shape])

theorem same_self (s : SwapStep) : (s == s) = true := by
  change (s.name == s.name && (s.status == s.status && (s.startedAt == s.startedAt && (s.completedAt == s.completedAt &&
    (s.duration == s.duration && s.error == s.error))))) = true
  simp

end SwapStep

/-- A snapshot, if there is one, is read as one that is equal to it. -/
theorem AgentState.option_draft {o : Option AgentState} {depth : Nat} (legible : ∀ s ∈ o, s.Legible)
    (shallow : depth + (Json.ofOption encode o).nesting ≤ Decode.depthLimit) :
    ∃ p, Decode.option decode depth (Json.ofOption encode o).draft = .ok p ∧ (p == o) = true := by
  cases o with
  | none => exact ⟨none, rfl, rfl⟩
  | some s =>
    obtain ⟨t, decoded, same⟩ := decode_encode (legible s rfl) shallow
    have read : ∀ a ∈ some t, decode depth s.encode.draft = .ok a := by
      rintro _ ⟨⟩
      exact decoded
    refine ⟨some t, ?_, same⟩
    change some <$> decode depth s.encode.draft = _
    rw [decoded]
    rfl

namespace Session
variable {s : Session} {depth : Nat}

structure Legible (s : Session) : Prop where
  snapshot : ∀ a ∈ s.snapshot, a.Legible
  steps : ∀ step ∈ s.steps, step.Legible
  startedAt : s.startedAt.Legible
  completedAt : ∀ t ∈ s.completedAt, t.Legible
  duration : ∀ d ∈ s.duration, d.Proper

theorem reads (legible : s.Legible) : Draft.Reads s.encode := by
  refine Draft.reads_obj ?_
  simp only [List.forall_mem_append, List.forall_mem_cons, List.not_mem_nil, IsEmpty.forall_iff, implies_true, and_true]
  exact ⟨⟨⟨Draft.reads_option fun t _ => Draft.reads_str _,
    Draft.reads_option fun d there => Draft.reads_legible (legible.duration d there).legible⟩,
    fun m there => Draft.reads_omissible errorMember rfl (fun _ => rfl) there⟩, Draft.reads_str _, Draft.reads_str _, Draft.reads_str _, Draft.reads_str _,
    Draft.reads_option fun a there => AgentState.reads (legible.snapshot a there), Draft.reads_str _,
    Draft.reads_list fun step there => SwapStep.reads (legible.steps step there)⟩

theorem same_snapshot {o : Option AgentState} (same : (o == s.snapshot) = true) : ({ s with snapshot := o } == s) = true := by
  have steps := list_same fun step (_ : step ∈ s.steps) => SwapStep.same_self step
  change (s.id == s.id && (s.oldName == s.oldName && (s.newName == s.newName && (s.status == s.status &&
    (o == s.snapshot && (s.steps == s.steps && (s.startedAt == s.startedAt && (s.completedAt == s.completedAt &&
      (s.duration == s.duration && s.error == s.error))))))))) = true
  simp [same, steps]

theorem decode_encode (legible : s.Legible) (shallow : depth + s.encode.nesting ≤ Decode.depthLimit) :
    ∃ t, decode depth s.encode.draft = .ok t ∧ (t == s) = true := by
  have duration : (Json.ofOption Json.ofSpan s.duration).nesting < s.encode.nesting :=
    Json.nesting_member (m := ("duration", .ofOption .ofSpan s.duration)) (by simp)
  have snapshot : (Json.ofOption AgentState.encode s.snapshot).nesting < s.encode.nesting :=
    Json.nesting_member (m := ("state_snapshot", .ofOption AgentState.encode s.snapshot)) (by simp)
  have steps : (Json.arr (s.steps.map SwapStep.encode)).nesting < s.encode.nesting :=
    Json.nesting_member (m := ("steps", .arr (s.steps.map SwapStep.encode))) (by simp)
  obtain ⟨o, read, same⟩ :
      ∃ o, Decode.option AgentState.decode (depth + 1) (Json.ofOption AgentState.encode s.snapshot).draft = .ok o ∧
        (o == s.snapshot) = true := AgentState.option_draft legible.snapshot (by omega)
  have taken : Decode.list SwapStep.decode (depth + 1) (Json.arr (s.steps.map SwapStep.encode)).draft = .ok s.steps :=
    Decode.list_draft (by omega) fun step there _ => SwapStep.decode_encode (legible.steps step there)
  have rest : ∀ seen, (∀ name ∈ ["id", "new_agent_name", "old_agent_name", "started_at", "state_snapshot", "status",
        "steps"], name ∉ seen) →
      shape.Takes (depth + 1)
        { shape.start with completedAt := s.completedAt, duration := s.duration, error := s.error } seen
        [("id", .str s.id), ("new_agent_name", .str s.newName), ("old_agent_name", .str s.oldName),
          ("started_at", .ofInstant s.startedAt), ("state_snapshot", .ofOption AgentState.encode s.snapshot),
          ("status", .str s.status.text), ("steps", .arr (s.steps.map SwapStep.encode))] { s with snapshot := o }
        (["steps", "status", "state_snapshot", "started_at", "old_agent_name", "new_agent_name", "id"] ++ seen) :=
    fun seen fresh =>
      .field rfl (by simp [fresh]) (Decode.put_ok rfl _) <|
      .field rfl (by simp [fresh]) (Decode.put_ok rfl _) <|
      .field rfl (by simp [fresh]) (Decode.put_ok rfl _) <|
      .field rfl (by simp [fresh]) (Decode.put_ok (Decode.instant_draft legible.startedAt) _) <|
      .field rfl (by simp [fresh]) (Decode.put_ok read _) <|
      .field rfl (by simp [fresh]) (Decode.put_ok (SwapStatus.decode_text _ _) _) <|
      .field rfl (by simp [fresh]) (Decode.put_ok taken _) .nil
  obtain ⟨also, takes⟩ := Shape.takes_omissible ["duration", "completed_at"] errorMember
    (fun error => { shape.start with completedAt := s.completedAt, duration := s.duration, error }) rfl rfl
    (fun _ => rfl) (fun _ => Decode.put_ok rfl _) (by decide) (by decide) rest
  have decoded : decode depth s.encode.draft = .ok { s with snapshot := o } :=
    Shape.decode_takes
      (.field rfl (by decide) (Decode.put_ok (Decode.instantOption_draft legible.completedAt) _) <|
        .field rfl (by decide) (Decode.put_ok (Decode.spanOption_draft legible.duration (by omega)) _) takes)
      (by omega) (by simp [shape])
  exact ⟨_, decoded, same_snapshot same⟩

end Session

namespace Message
variable {m : Message} {id : String} {now : Instant} {depth : Nat}

structure Legible (m : Message) : Prop where
  payload : m.payload.Legible
  sentAt : m.sentAt.Legible

def inboxMember : Option String → List (String × Json)
  | some inbox => [("reply_to", .str inbox)]
  | none => []

theorem encode_eq (m : Message) : m.encode =
    .obj ([("from", .str m.sender), ("id", .str m.id), ("payload", m.payload)] ++ inboxMember m.replyTo
      ++ [("sent_at", .ofInstant m.sentAt), ("to", .str m.recipient), ("topic", .str m.topic)]) := rfl

theorem reads (legible : m.Legible) : Draft.Reads m.encode := by
  rw [encode_eq]
  refine Draft.reads_obj ?_
  simp only [List.forall_mem_append, List.forall_mem_cons, List.not_mem_nil, IsEmpty.forall_iff, implies_true, and_true]
  exact ⟨⟨⟨Draft.reads_str _, Draft.reads_str _, Draft.reads_legible legible.payload⟩,
    fun e there => Draft.reads_omissible inboxMember rfl (fun _ => rfl) there⟩, Draft.reads_str _, Draft.reads_str _,
    Draft.reads_str _⟩

theorem same_self (legible : m.Legible) : (m == m) = true := by
  change (m.id == m.id && (m.sender == m.sender && (m.recipient == m.recipient && (m.topic == m.topic &&
    (m.payload == m.payload && (m.replyTo == m.replyTo && m.sentAt == m.sentAt)))))) = true
  simp [Json.same_self legible.payload]

theorem decode_encode (legible : m.Legible) (shallow : depth + m.encode.nesting ≤ Decode.depthLimit) :
    decode id now depth m.encode.draft = .ok m := by
  have payload : m.payload.nesting < m.encode.nesting := Json.nesting_member (m := ("payload", m.payload)) (by simp)
  have rest : ∀ seen, (∀ name ∈ ["sent_at", "to", "topic"], name ∉ seen) →
      (shape id now).Takes (depth + 1)
        { (shape id now).start with sender := m.sender, id := m.id, payload := m.payload, replyTo := m.replyTo } seen
        [("sent_at", .ofInstant m.sentAt), ("to", .str m.recipient), ("topic", .str m.topic)] m
        (["topic", "to", "sent_at"] ++ seen) :=
    fun seen fresh =>
      .field rfl (by simp [fresh]) (Decode.put_ok (Decode.instant_draft legible.sentAt) _) <|
      .field rfl (by simp [fresh]) (Decode.put_ok rfl _) <|
      .field rfl (by simp [fresh]) (Decode.put_ok rfl _) .nil
  obtain ⟨also, takes⟩ := Shape.takes_omissible ["payload", "id", "from"] inboxMember
    (fun replyTo => { (shape id now).start with sender := m.sender, id := m.id, payload := m.payload, replyTo }) rfl rfl
    (fun _ => rfl) (fun _ => Decode.put_ok rfl _) (by decide) (by decide) rest
  exact Shape.decode_takes
    (.field rfl (by decide) (Decode.put_ok rfl _) <|
      .field rfl (by decide) (Decode.put_ok rfl _) <|
      .field rfl (by decide) (Decode.put_ok (Decode.json_draft legible.payload (by omega)) _) takes)
    (by omega) (by simp [shape])

end Message
end Handover
