import Handover.Agent.Wire
import Handover.Session.Basic

/-!
# Sessions as JSON

Members stand in the order of their names, as they do for agents.
-/

namespace Handover

namespace SwapStatus

def all : List (String × SwapStatus) :=
  [initiating, capturingState, pausing, transferringState, verifying, completed, failed,
    rolledBack].map fun s => (s.text, s)

def decode : Decoder SwapStatus := Decode.variant all

end SwapStatus

namespace StepStatus

def all : List (String × StepStatus) := [running, completed, failed].map fun s => (s.text, s)

def decode : Decoder StepStatus := Decode.variant all

end StepStatus

def errorMember : Option String → List (String × Json)
  | some e => [("error", .str e)]
  | none => []

namespace SwapStep

def encode (s : SwapStep) : Json :=
  .obj ([("completed_at", .ofOption .ofInstant s.completedAt),
      ("duration", .ofOption .ofSpan s.duration)] ++ errorMember s.error
    ++ [("name", .str s.name), ("started_at", .ofInstant s.startedAt), ("status", .str s.status.text)])

def shape : Shape SwapStep where
  title := "SwapStep"
  fields := [("name", .required), ("status", .required), ("started_at", .required),
    ("completed_at", .optional), ("duration", .optional), ("error", .defaulted)]
  start := { name := "", startedAt := ⟨0, 0⟩ }
  put name s depth d := match name with
    | "name" => do return { s with name := ← Decode.text depth d }
    | "status" => do return { s with status := ← StepStatus.decode depth d }
    | "started_at" => do return { s with startedAt := ← Decode.instant depth d }
    | "completed_at" => do return { s with completedAt := ← Decode.option Decode.instant depth d }
    | "duration" => do return { s with duration := ← Decode.option Decode.span depth d }
    | _ => do return { s with error := ← Decode.option Decode.text depth d }

def decode : Decoder SwapStep := shape.decode

end SwapStep

namespace Session

def encode (s : Session) : Json :=
  .obj ([("completed_at", .ofOption .ofInstant s.completedAt),
      ("duration", .ofOption .ofSpan s.duration)] ++ errorMember s.error
    ++ [("id", .str s.id), ("new_agent_name", .str s.newName), ("old_agent_name", .str s.oldName),
      ("started_at", .ofInstant s.startedAt), ("state_snapshot", .ofOption AgentState.encode s.snapshot),
      ("status", .str s.status.text), ("steps", .arr (s.steps.map SwapStep.encode))])

def shape : Shape Session where
  title := "SwapSession"
  fields := [("id", .required), ("old_agent_name", .required), ("new_agent_name", .required),
    ("status", .required), ("state_snapshot", .optional), ("steps", .required),
    ("started_at", .required), ("completed_at", .optional), ("duration", .optional),
    ("error", .defaulted)]
  start := { id := "", oldName := "", newName := "", startedAt := ⟨0, 0⟩ }
  put name s depth d := match name with
    | "id" => do return { s with id := ← Decode.text depth d }
    | "old_agent_name" => do return { s with oldName := ← Decode.text depth d }
    | "new_agent_name" => do return { s with newName := ← Decode.text depth d }
    | "status" => do return { s with status := ← SwapStatus.decode depth d }
    | "state_snapshot" => do return { s with snapshot := ← Decode.option AgentState.decode depth d }
    | "steps" => do return { s with steps := ← Decode.list SwapStep.decode depth d }
    | "started_at" => do return { s with startedAt := ← Decode.instant depth d }
    | "completed_at" => do return { s with completedAt := ← Decode.option Decode.instant depth d }
    | "duration" => do return { s with duration := ← Decode.option Decode.span depth d }
    | _ => do return { s with error := ← Decode.option Decode.text depth d }

def decode : Decoder Session := shape.decode

end Session
end Handover
