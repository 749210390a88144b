import Handover.Proofs.Session.Wire

/-!
# The wire format is lossless

What is written for an agent's state, a registration, a session or a message is read as a value equal to it. States and
registrations may also lose members that have defaults on the way, and gain others.
-/

namespace Handover.Wire

variable {α : Type} [BEq α] {decode : Decoder α} {j : Json} {x : α}

/-- From the text of `j` a value is read that is equal to `x`. -/
def ReadAs (decode : Decoder α) (j : Json) (x : α) : Prop :=
  ∃ y, Decode.ofText decode j.render = .ok y ∧ (y == x) = true

theorem readAs_draft (reads : Draft.Reads j) (decoded : ∃ y, decode 0 j.draft = .ok y ∧ (y == x) = true) :
    ReadAs decode j x := by
  obtain ⟨y, decoded, same⟩ := decoded
  exact ⟨y, (Decode.ofText_reads reads).trans decoded, same⟩

/-- Legible values are those whose numbers are in the range of their types, whose average latency is finite, and whose
doubles, times and amounts are each read as they are written. -/
theorem lossless :
    (∀ s : AgentState, s.Legible → s.encode.nesting ≤ Decode.depthLimit →
      ReadAs AgentState.decode s.encode s ∧
      ∀ members removed added edited, s.encode = .obj members → AgentState.shape.Edited members removed added edited →
        ReadAs AgentState.decode (.obj edited) (s.keeping fun name => decide (name ∉ removed))) ∧
    (∀ r : Registration, r.Legible → r.encode.nesting ≤ Decode.depthLimit →
      ReadAs Registration.decode r.encode r ∧
      ∀ members removed added edited, r.encode = .obj members → Registration.shape.Edited members removed added edited →
        ReadAs Registration.decode (.obj edited) (r.keeping fun name => decide (name ∉ removed))) ∧
    (∀ s : Session, s.Legible → s.encode.nesting ≤ Decode.depthLimit → ReadAs Session.decode s.encode s) ∧
    ∀ (m : Message) id now, m.Legible → m.encode.nesting ≤ Decode.depthLimit →
      ReadAs (Message.decode id now) m.encode m := by
  refine ⟨fun s legible shallow => ⟨?_, ?_⟩, fun r legible shallow => ⟨?_, ?_⟩, fun s legible shallow => ?_,
    fun m id now legible shallow => ?_⟩
  · exact readAs_draft (AgentState.reads legible) (AgentState.decode_encode legible (by omega))
  · rintro _ removed added edited ⟨⟩ edits
    exact readAs_draft (Draft.reads_obj (edits.reads fun _ => AgentState.member_reads legible))
      (AgentState.decode_edited legible (by omega) edits)
  · exact readAs_draft (Registration.reads legible) (Registration.decode_encode legible (by omega))
  · rintro _ removed added edited ⟨⟩ edits
    exact readAs_draft (Draft.reads_obj (edits.reads fun _ => Registration.member_reads legible))
      (Registration.decode_edited legible (by omega) edits)
  · exact readAs_draft (Session.reads legible) (Session.decode_encode legible (by omega))
  · exact readAs_draft (Message.reads legible) ⟨m, Message.decode_encode legible (by omega), Message.same_self legible⟩

namespace Sample

def task : AgentTask where
  id := "task-1"
  taskType := "scan"
  priority := -2
  status := .running
  payload := .obj [("limits", .arr [.int 3, .float (.ofRatio false 1 2)])]
  createdAt := ⟨1700000000, 500000000⟩

def state : AgentState where
  memory := [("last", .str "two\nlines")]
  pendingTasks := [task]
  metrics := { Metrics.fresh with total := 3, failed := 1, lastUpdated := some ⟨1700000000, 0⟩ }
  history := [{ timestamp := ⟨1700000000, 0⟩, event := "resumed" }]

def registration : Registration where
  name := "worker"
  agentType := "trend"
  version := "2"
  capabilities := ["scan", "report"]
  status := .paused
  state := state
  registeredAt := ⟨1700000000, 0⟩
  lastHeartbeat := ⟨1700000001, 0⟩

def session : Session where
  id := "swap-1"
  oldName := "worker"
  newName := "heir"
  status := .verifying
  snapshot := some state
  steps := [{ name := "pause", status := .failed, startedAt := ⟨1700000000, 0⟩, completedAt := some ⟨1700000001, 0⟩,
              duration := some ⟨1, 0⟩, error := some "no answer" }]
  startedAt := ⟨1700000000, 0⟩

def message : Message where
  id := "message-1"
  sender := "coordinator"
  recipient := "worker"
  topic := "control"
  payload := Command.pause.encode
  replyTo := some "_INBOX.1"
  sentAt := ⟨1700000000, 0⟩

theorem single_legible {name : String} {j : Json} (legible : j.Legible) : (Json.obj [(name, j)]).Legible :=
  .obj (List.pairwise_singleton _ _) (List.forall_mem_singleton.mpr legible)

theorem task_legible : task.Legible where
  priority := ⟨by decide, by decide⟩
  payload := by
    refine single_legible (.arr ?_)
    rintro _ (_ | ⟨_, _ | ⟨_, ⟨⟩⟩⟩)
    · exact .int (by decide) (by decide)
    · exact .float rfl
  createdAt := rfl

theorem state_legible : state.Legible where
  memory := single_legible (.str _)
  pendingTasks := List.forall_mem_singleton.mpr task_legible
  activeTask := nofun
  configuration := .obj Table.ordered_nil nofun
  metrics := {
    Metrics.fresh_legible with
    total := ⟨by decide, by decide⟩
    failed := ⟨by decide, by decide⟩
    lastUpdated := by
      rintro _ ⟨⟩
      rfl }
  history := List.forall_mem_singleton.mpr ⟨rfl, .obj Table.ordered_nil nofun⟩

theorem registration_legible : registration.Legible := ⟨state_legible, rfl, rfl⟩

theorem session_legible : session.Legible where
  snapshot := by
    rintro _ ⟨⟩
    exact state_legible
  steps := by
    refine List.forall_mem_singleton.mpr ⟨rfl, ?_, ?_⟩
    · rintro _ ⟨⟩
      rfl
    · rintro _ ⟨⟩
      exact ⟨by decide, by decide⟩
  startedAt := rfl
  completedAt := nofun
  duration := nofun

theorem message_legible : message.Legible := ⟨single_legible (.str _), rfl⟩

end Sample

theorem lossless_for_samples :
    (Sample.state.Legible ∧ Sample.state.encode.nesting ≤ Decode.depthLimit ∧
      ReadAs AgentState.decode Sample.state.encode Sample.state ∧
      ReadAs AgentState.decode (.obj (("extra", .bool true) :: Sample.state.members.filter fun m => m.1 ∉ ["memory"]))
        { Sample.state with memory := [] }) ∧
    (Sample.registration.Legible ∧ Sample.registration.encode.nesting ≤ Decode.depthLimit ∧
      ReadAs Registration.decode Sample.registration.encode Sample.registration ∧
      ReadAs Registration.decode
        (.obj (("extra", .bool true) :: Sample.registration.members.filter fun m => m.1 ∉ ["version", "status"]))
        { Sample.registration with version := "", status := .active }) ∧
    (Sample.session.Legible ∧ Sample.session.encode.nesting ≤ Decode.depthLimit ∧
      ReadAs Session.decode Sample.session.encode Sample.session) ∧
    Sample.message.Legible ∧ Sample.message.encode.nesting ≤ Decode.depthLimit ∧
      ReadAs (Message.decode "" ⟨0, 0⟩) Sample.message.encode Sample.message := by
  obtain ⟨states, registrations, sessions, messages⟩ := lossless
  have foreign : ∀ m ∈ [("extra", Json.bool true)], AgentState.shape.knows m.1 = false ∧ m.2.Legible :=
    List.forall_mem_singleton.mpr ⟨rfl, .bool true⟩
  have foreign' : ∀ m ∈ [("extra", Json.bool true)], Registration.shape.knows m.1 = false ∧ m.2.Legible :=
    List.forall_mem_singleton.mpr ⟨rfl, .bool true⟩
  have state := states Sample.state Sample.state_legible (by decide)
  have registration := registrations Sample.registration Sample.registration_legible (by decide)
  refine ⟨⟨Sample.state_legible, by decide, state.1, ?_⟩, ⟨Sample.registration_legible, by decide, registration.1, ?_⟩,
    ⟨Sample.session_legible, by decide, sessions _ Sample.session_legible (by decide)⟩, Sample.message_legible,
    by decide, messages _ _ _ Sample.message_legible (by decide)⟩
  · exact state.2 _ ["memory"] _ _ rfl ⟨by decide, foreign, (List.perm_append_singleton _ _).symm⟩
  · exact registration.2 _ ["version", "status"] _ _ rfl ⟨by decide, foreign', (List.perm_append_singleton _ _).symm⟩

end Handover.Wire
