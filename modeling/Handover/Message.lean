import Handover.Error

/-!
# Messages

Envelopes between the coordinator and the agents, and what is said on the control topic.
-/

namespace Handover

structure Message where
  id : String
  sender : String
  recipient : String
  topic : String
  payload : Json
  /-- The inbox in which a requester waits. -/
  replyTo : Option String := none
  sentAt : Instant
  deriving BEq, Repr

namespace Message

def subject (lead agent topic : String) : String := lead ++ agent ++ "." ++ topic

def replyWith (m : Message) (id : String) (now : Instant) (payload : Json) : Message :=
  { id, sender := m.recipient, recipient := m.sender, topic := m.topic, payload, sentAt := now }

/-- Members stand in the order of their names. -/
def encode (m : Message) : Json :=
  .obj ([("from", .str m.sender), ("id", .str m.id), ("payload", m.payload)]
    ++ (match m.replyTo with
      | some inbox => [("reply_to", .str inbox)]
      | none => [])
    ++ [("sent_at", .ofInstant m.sentAt), ("to", .str m.recipient), ("topic", .str m.topic)])

/-- A message without an id or a time gets the ones given. -/
def shape (id : String) (now : Instant) : Shape Message where
  title := "AgentMessage"
  fields := [("id", .defaulted), ("from", .required), ("to", .required), ("topic", .required),
    ("payload", .required), ("reply_to", .defaulted), ("sent_at", .defaulted)]
  start := { id, sender := "", recipient := "", topic := "", payload := .null, sentAt := now }
  put name m depth d := match name with
    | "id" => do return { m with id := ← Decode.text depth d }
    | "from" => do return { m with sender := ← Decode.text depth d }
    | "to" => do return { m with recipient := ← Decode.text depth d }
    | "topic" => do return { m with topic := ← Decode.text depth d }
    | "payload" => do return { m with payload := ← Decode.json depth d }
    | "reply_to" => do return { m with replyTo := ← Decode.option Decode.text depth d }
    | _ => do return { m with sentAt := ← Decode.instant depth d }

def decode (id : String) (now : Instant) : Decoder Message := (shape id now).decode

def decodePayload {α : Type} (decode : Decoder α) (m : Message) : Except Error α :=
  match Decode.ofJson decode m.payload with
  | .ok a => .ok a
  | .error f =>
    .error (.internal s!"failed to decode payload of message {m.id} on {m.topic}: {f.text}")

/-- A payload that has no JSON form because a name in it is no string. -/
def unencodable (recipient : String) : Error :=
  .internal s!"failed to encode payload for {recipient}: key must be a string"

end Message

inductive Command where
  /-- Stop taking new work, keep the state. -/
  | pause
  | resume
  | ping
  deriving DecidableEq, Repr

namespace Command

def text : Command → String
  | pause => "pause"
  | resume => "resume"
  | ping => "ping"

def all : List (String × Command) := [pause, resume, ping].map fun c => (c.text, c)

def encode (c : Command) : Json := .obj [("command", .str c.text)]

def tag : Decoder Command := fun _ d =>
  match d with
  | .str s =>
    match all.find? (·.1 = s) with
    | some (_, c) => .ok c
    | none => .error (.mismatch (.unknownVariant s (all.map (·.1))))
  | d => .error (d.unexpected "variant identifier")

/-- The command among the members of an object; the others may hold anything. -/
def ofMembers (depth : Nat) (found : Option Command) :
    List (Option String × Draft) → Except Fault (Option Command)
  | [] => .ok found
  | (none, _) :: _ => .error (.broken .grammar)
  | (some name, d) :: rest => do
    if name = "command" then
      if found.isSome then throw (.mismatch (.repeated name))
      let c ← tag depth d
      ofMembers depth (some c) rest
    else
      let _ ← Decode.json depth d
      ofMembers depth found rest

/-- An object with a `command`, or an array of nothing but the command's name. -/
def decode : Decoder Command := fun depth d =>
  match d with
  | .obj ms tail => do
    Decode.enter depth
    let found ← ofMembers (depth + 1) none ms
    Draft.tailFault tail
    match found with
    | some c => return c
    | none => throw (.mismatch (.missing "command"))
  | .arr ds tail => do
    Decode.enter depth
    match ds with
    | [] =>
      Draft.tailFault tail
      throw (.mismatch (.missing "command"))
    | d :: rest =>
      let c ← tag (depth + 1) d
      let _ ← Decode.jsonItems (depth + 1) rest
      Draft.tailFault tail
      if rest.isEmpty then return c
      throw (.mismatch (.wrongLength rest.length "0 elements in sequence"))
  | d => .error (d.unexpected "internally tagged enum ControlCommand")

end Command

structure Reply where
  status : String
  deriving DecidableEq, Repr

namespace Reply

def ok : Reply := ⟨"ok"⟩

def isOk (r : Reply) : Bool := r.status == "ok"

def encode (r : Reply) : Json := .obj [("status", .str r.status)]

def shape : Shape Reply where
  title := "ControlReply"
  fields := [("status", .required)]
  start := ⟨""⟩
  put _ _ depth d := do return ⟨← Decode.text depth d⟩

def decode : Decoder Reply := shape.decode

end Reply

def controlTopic : String := "control"

def coordinatorName : String := "coordinator"

end Handover
