import Handover.Config.Basic
import Handover.Config.Setting
import Handover.Toml.Document

/-!
# Loading the configuration

The configuration is laid over the defaults from four sources, of which later ones win: the presets, the file
`default.toml`, the file of the environment, and variables of the process. A section is read from a table
of its fields, or from a list of them in order. How files are found and read is up to a library, the
`FileReader`.
-/

namespace Handover

abbrev Fields (α : Type) := List (String × (α → Setting → Except ConfigError α))

namespace Config

/-- Reads a section over its defaults; fields that are not there keep them. -/
def section? {α : Type} (fields : Fields α) (start : α) : Setting → Except ConfigError α
  | .table entries =>
    fields.foldlM (fun c field =>
      match Table.get? field.1 entries with
      | some s => field.2 c s
      | none => .ok c) start
  | .list items => (fields.zip items).foldlM (fun c pair => pair.1.2 c pair.2) start
  | _ => .error (.message "invalid type: expected a section")

def busFields : Fields BusConfig :=
  [("subject_prefix", fun c s => do return { c with subjectPrefix := ← s.asText }),
    ("channel_capacity", fun c s => do return { c with channelCapacity := ← s.asNat })]

def blackboardFields : Fields BlackboardConfig :=
  [("key_prefix", fun c s => do return { c with keyPrefix := ← s.asText }),
    ("mirror_enabled", fun c s => do return { c with mirrorEnabled := ← s.asBool })]

def swapFields : Fields SwapConfig :=
  [("ping_timeout_ms", fun c s => do return { c with pingTimeoutMs := ← s.asNat }),
    ("max_sessions_retained", fun c s => do return { c with maxSessionsRetained := ← s.asNat })]

def registryFields : Fields RegistryConfig :=
  [("heartbeat_timeout_ms", fun c s => do return { c with heartbeatTimeoutMs := ← s.asNat })]

def loggingFields : Fields LoggingConfig :=
  [("level", fun c s => do return { c with level := ← s.asText }),
    ("json", fun c s => do return { c with json := ← s.asBool })]

def fields : Fields Config :=
  [("bus", fun c s => do return { c with bus := ← section? busFields {} s }),
    ("blackboard", fun c s => do return { c with blackboard := ← section? blackboardFields {} s }),
    ("swap", fun c s => do return { c with swap := ← section? swapFields {} s }),
    ("registry", fun c s => do return { c with registry := ← section? registryFields {} s }),
    ("logging", fun c s => do return { c with logging := ← section? loggingFields {} s })]

def variableNames : List String :=
  let of (part : String) (names : List String) :=
    names.map fun name => ("ORCH__" ++ part ++ "__" ++ name).toUpper
  of "bus" (busFields.map (·.1)) ++ of "blackboard" (blackboardFields.map (·.1))
    ++ of "swap" (swapFields.map (·.1)) ++ of "registry" (registryFields.map (·.1))
    ++ of "logging" (loggingFields.map (·.1))

def ofSettings (t : Table Setting) : Except ConfigError Config := section? fields {} (.table t)

end Config

/-- Formats of files of settings. -/
inductive FileFormat where
  | toml
  | json
  | yaml
  | ini
  | ron
  | json5
  deriving DecidableEq, Repr

namespace FileFormat

def all : List FileFormat := [.toml, .json, .yaml, .ini, .ron, .json5]

def extensions : FileFormat → List String
  | .toml => ["toml"]
  | .json => ["json"]
  | .yaml => ["yaml", "yml"]
  | .ini => ["ini"]
  | .ron => ["ron"]
  | .json5 => ["json5"]

/-- The part of a file's name behind its last point, unless nothing stands before that point. -/
def extensionOf (name : String) : String :=
  match Setting.parts name with
  | [] | [_] | ["", _] => ""
  | parts => parts.getLastD ""

/-- The file of a name, or of the name with an extension that tells its format. A file with the name
itself whose extension tells no format is not read. -/
def search (files : List (String × String)) (name : String) : Option (FileFormat × String) :=
  match files.find? (·.1 = name) with
  | some (_, text) => (all.find? (extensionOf name ∈ ·.extensions)).map fun f => (f, text)
  | none =>
    if name.isEmpty then none
    else all.findSome? fun f => f.extensions.findSome? fun extension =>
      (files.find? (·.1 = name ++ "." ++ extension)).map fun e => (f, e.2)

/-- What a text of a format sets. Texts in formats other than TOML and JSON are not taken apart here. -/
def settings? : FileFormat → String → Option (Table Setting)
  | .toml, text => Toml.ofText? text
  | .json, text =>
    match Json.ofText text with
    | .ok (.obj members) => some (Setting.ofMembers members)
    | _ => none
  | .yaml, _ | .ini, _ | .ron, _ | .json5, _ => none

end FileFormat

/-- The library that finds and reads files of settings. What is given here is what it does for names of files in the
directory, one file to a name, in TOML or JSON. Beyond that both are left open: the library tries the formats in no
fixed order where files of several formats bear a name, follows paths, and reads YAML, INI, RON and JSON5 as well. -/
structure FileReader where
  search : List (String × String) → String → Option (FileFormat × String) := FileFormat.search
  settings? : FileFormat → String → Option (Table Setting) := FileFormat.settings?

/-- What a configuration is loaded from: the files of a directory, the variables of the process, and the library that
reads the files. -/
structure ConfigSources where
  files : List (String × String) := []
  vars : List (String × String) := []
  reader : FileReader := {}

namespace ConfigSources

def unreadable (name : String) : ConfigError := .unreadable s!"could not read {name}"

def file? (s : ConfigSources) (name : String) : Option (FileFormat × String) := s.reader.search s.files name

/-- The settings in a file; a file that is not there has none. -/
def fileSettings (s : ConfigSources) (name : String) : Except ConfigError (Table Setting) :=
  match s.file? name with
  | none => .ok []
  | some (format, text) =>
    match s.reader.settings? format text with
    | some t => .ok t
    | none => .error (unreadable name)

/-- What the variables that set something start with, whatever their case. -/
def lead : List Char := ['o', 'r', 'c', 'h', '_', '_']

/-- Two underscores separate the levels of a key. -/
def levels : List Char → List Char
  | '_' :: '_' :: rest => '.' :: levels rest
  | c :: rest => c :: levels rest
  | [] => []

def variableKey? (name : String) : Option String :=
  let cs := (Setting.foldCase name).toList
  if lead.isPrefixOf cs then some (String.ofList (levels (cs.drop lead.length))) else none

def variableSettings (s : ConfigSources) : List (String × Setting) :=
  s.vars.filterMap fun (name, text) => (variableKey? name).map fun key => (key, Setting.ofText text)

def environmentVariable : String := "ORCH_ENV"

def environment (s : ConfigSources) : String :=
  match s.vars.find? (·.1 = environmentVariable) with
  | some (_, name) => name
  | none => "development"

def fileNames (s : ConfigSources) : List String :=
  "default.toml" :: s.environment :: (FileFormat.all.flatMap FileFormat.extensions).map (s.environment ++ "." ++ ·)

/-- The settings below all files. They repeat the defaults of some of the fields. -/
def presets : List (String × Setting) :=
  [("bus.subject_prefix", .text ({} : BusConfig).subjectPrefix),
    ("blackboard.key_prefix", .text ({} : BlackboardConfig).keyPrefix),
    ("swap.ping_timeout_ms", .int ({} : SwapConfig).pingTimeoutMs),
    ("logging.level", .text "info"),
    ("logging.json", .bool false)]

def settings (s : ConfigSources) : Except ConfigError (Table Setting) := do
  let base ← s.fileSettings "default.toml"
  let top ← s.fileSettings s.environment
  return Setting.layered [presets, base, top, s.variableSettings]

end ConfigSources

namespace Config

def load (s : ConfigSources) : Except Error Config :=
  match s.settings.bind ofSettings with
  | .ok c => .ok c
  | .error e => .error (.config e)

def loadValid (s : ConfigSources) : Except Error Config := do
  let c ← load s
  c.validate
  return c

end Config
end Handover
