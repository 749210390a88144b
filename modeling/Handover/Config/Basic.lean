import Handover.Error

/-!
# Configuration
-/

namespace Handover

structure BusConfig where
  subjectPrefix : String := "agents."
  /-- Messages a subscription holds before more are dropped. -/
  channelCapacity : Nat := 256
  deriving DecidableEq, Repr

structure BlackboardConfig where
  keyPrefix : String := "blackboard:"
  mirrorEnabled : Bool := true
  deriving DecidableEq, Repr

structure SwapConfig where
  pingTimeoutMs : Nat := 5000
  /-- Ended sessions kept before the oldest are forgotten. -/
  maxSessionsRetained : Nat := 256
  deriving DecidableEq, Repr

structure RegistryConfig where
  /-- How long an agent may be silent before it counts as stale. -/
  heartbeatTimeoutMs : Nat := 30000
  deriving DecidableEq, Repr

structure LoggingConfig where
  level : String := "info"
  json : Bool := false
  deriving DecidableEq, Repr

structure Config where
  bus : BusConfig := {}
  blackboard : BlackboardConfig := {}
  swap : SwapConfig := {}
  registry : RegistryConfig := {}
  logging : LoggingConfig := {}
  deriving DecidableEq, Repr

namespace Config

/-- What is wrong with the values, in the order of the sections. -/
def problems (c : Config) : List String :=
  let needs (ok : Bool) (text : String) := if ok then [] else [text]
  needs (c.bus.subjectPrefix ≠ "") "bus.subject_prefix must not be empty"
    ++ needs (c.bus.channelCapacity ≠ 0) "bus.channel_capacity must be positive"
    ++ needs (c.blackboard.keyPrefix ≠ "") "blackboard.key_prefix must not be empty"
    ++ needs (c.swap.pingTimeoutMs ≠ 0) "swap.ping_timeout_ms must be positive"
    ++ needs (c.swap.maxSessionsRetained ≠ 0) "swap.max_sessions_retained must be positive"
    ++ needs (c.registry.heartbeatTimeoutMs ≠ 0) "registry.heartbeat_timeout_ms must be positive"

def validate (c : Config) : Except Error Unit :=
  if c.problems.isEmpty then .ok () else .error (.validation ("; ".intercalate c.problems))

def encode (c : Config) : Json :=
  .obj [
    ("blackboard", .obj [("key_prefix", .str c.blackboard.keyPrefix),
      ("mirror_enabled", .bool c.blackboard.mirrorEnabled)]),
    ("bus", .obj [("channel_capacity", .int c.bus.channelCapacity),
      ("subject_prefix", .str c.bus.subjectPrefix)]),
    ("logging", .obj [("json", .bool c.logging.json), ("level", .str c.logging.level)]),
    ("registry", .obj [("heartbeat_timeout_ms", .int c.registry.heartbeatTimeoutMs)]),
    ("swap", .obj [("max_sessions_retained", .int c.swap.maxSessionsRetained),
      ("ping_timeout_ms", .int c.swap.pingTimeoutMs)])]

def busShape : Shape BusConfig where
  title := "BusConfig"
  fields := [("subject_prefix", .defaulted), ("channel_capacity", .defaulted)]
  start := {}
  put name c depth d := match name with
    | "subject_prefix" => do return { c with subjectPrefix := ← Decode.text depth d }
    | _ => do return { c with channelCapacity := ← Decode.nat64 depth d }

def blackboardShape : Shape BlackboardConfig where
  title := "BlackboardConfig"
  fields := [("key_prefix", .defaulted), ("mirror_enabled", .defaulted)]
  start := {}
  put name c depth d := match name with
    | "key_prefix" => do return { c with keyPrefix := ← Decode.text depth d }
    | _ => do return { c with mirrorEnabled := ← Decode.bool depth d }

def swapShape : Shape SwapConfig where
  title := "SwapConfig"
  fields := [("ping_timeout_ms", .defaulted), ("max_sessions_retained", .defaulted)]
  start := {}
  put name c depth d := match name with
    | "ping_timeout_ms" => do return { c with pingTimeoutMs := ← Decode.nat64 depth d }
    | _ => do return { c with maxSessionsRetained := ← Decode.nat64 depth d }

def registryShape : Shape RegistryConfig where
  title := "RegistryConfig"
  fields := [("heartbeat_timeout_ms", .defaulted)]
  start := {}
  put _ _ depth d := do return { heartbeatTimeoutMs := ← Decode.nat64 depth d }

def loggingShape : Shape LoggingConfig where
  title := "LoggingConfig"
  fields := [("level", .defaulted), ("json", .defaulted)]
  start := {}
  put name c depth d := match name with
    | "level" => do return { c with level := ← Decode.text depth d }
    | _ => do return { c with json := ← Decode.bool depth d }

def shape : Shape Config where
  title := "AppConfig"
  fields := [("bus", .defaulted), ("blackboard", .defaulted), ("swap", .defaulted),
    ("registry", .defaulted), ("logging", .defaulted)]
  start := {}
  put name c depth d := match name with
    | "bus" => do return { c with bus := ← busShape.decode depth d }
    | "blackboard" => do return { c with blackboard := ← blackboardShape.decode depth d }
    | "swap" => do return { c with swap := ← swapShape.decode depth d }
    | "registry" => do return { c with registry := ← registryShape.decode depth d }
    | _ => do return { c with logging := ← loggingShape.decode depth d }

def decode : Decoder Config := shape.decode

end Config
end Handover
