import Handover.Json.Draft
import Handover.Number.Decimal
import Handover.Text.Quoted
import Handover.Time.Timestamp

/-!
# Decoding

A decoder reads a draft into a value of a type. Records come as objects or as arrays of their fields; a
`Shape` says which fields there are and which may be missing. Faults are met in the order of the text.
-/

namespace Handover

inductive Found where
  | null
  | bool (value : Bool)
  | int (value : Int)
  | float (value : Double)
  | str (value : String)
  | sequence
  | map
  deriving DecidableEq, Repr

namespace Found

def text : Found → String
  | .null => "null"
  | .bool b => s!"boolean `{b}`"
  | .int i => s!"integer `{i}`"
  | .float d => s!"floating point `{d.jsonText}`"
  | .str s => s!"string {Text.quoted s}"
  | .sequence => "sequence"
  | .map => "map"

end Found

/-- Well-formed JSON that is not of the type. -/
inductive Mismatch where
  | wrongType (found : Found) (expected : String)
  | wrongValue (found : Found) (expected : String)
  | wrongLength (length : Nat) (expected : String)
  | missing (field : String)
  | repeated (field : String)
  | unknownField (field : String)
  | unknownVariant (name : String) (known : List String)
  | overflow (type : String)
  deriving DecidableEq, Repr

namespace Mismatch

def text : Mismatch → String
  | .wrongType found expected => s!"invalid type: {found.text}, expected {expected}"
  | .wrongValue found expected => s!"invalid value: {found.text}, expected {expected}"
  | .wrongLength n expected => s!"invalid length {n}, expected {expected}"
  | .missing field => s!"missing field `{field}`"
  | .repeated field => s!"duplicate field `{field}`"
  | .unknownField field => s!"unknown field `{field}`"
  | .unknownVariant name known =>
    let names := ", ".intercalate (known.map fun k => s!"`{k}`")
    s!"unknown variant `{name}`, expected one of {names}"
  | .overflow type => s!"overflow deserializing {type}"

end Mismatch

inductive Fault where
  | broken (how : Break)
  /-- An array goes on behind the last field of its record. -/
  | surplus (length : Nat)
  | mismatch (how : Mismatch)
  deriving DecidableEq, Repr

inductive FaultKind where
  | grammar
  | ended
  | data
  deriving DecidableEq, Repr

namespace Fault

/-- In a text, surplus elements break the rules of the text. -/
def kind : Fault → FaultKind
  | .broken .grammar => .grammar
  | .broken .ended => .ended
  | .surplus _ => .grammar
  | .mismatch _ => .data

def text : Fault → String
  | .broken .grammar => "expected value"
  | .broken .ended => "EOF while parsing a value"
  | .surplus n => s!"invalid length {n}, expected fewer elements in array"
  | .mismatch m => m.text

end Fault

/-- Reads a draft that lies inside `depth` arrays and objects. -/
abbrev Decoder (α : Type) := (depth : Nat) → Draft → Except Fault α

namespace Draft

def unexpected (expected : String) (d : Draft) : Fault :=
  let found (f : Found) := Fault.mismatch (.wrongType f expected)
  match d with
  | .null => found .null
  | .bool b => found (.bool b)
  | .int i => found (.int i)
  | .float x => found (.float x)
  | .str s => found (.str s)
  | .arr .. => found .sequence
  | .obj .. => found .map
  | .huge | .mangled => .broken .grammar
  | .broken r _ | .stuck r _ => .broken r

mutual

/-- The fault, if any, that passing over a draft meets. -/
def skip : Draft → Except Fault Unit
  | .broken _ s | .stuck _ s => .error (.broken s)
  | .arr items tail => do
    skipItems items
    skipTail tail
  | .obj members tail => do
    skipMembers members
    skipTail tail
  | _ => .ok ()

def skipItems : List Draft → Except Fault Unit
  | [] => .ok ()
  | d :: rest => do
    skip d
    skipItems rest

def skipMembers : List (Option String × Draft) → Except Fault Unit
  | [] => .ok ()
  | (_, d) :: rest => do
    skip d
    skipMembers rest

def skipTail : Tail → Except Fault Unit
  | .closed => .ok ()
  | .cut _ _ s => .error (.broken s)
  | .oddName _ => .error (.broken .grammar)

end

/-- What a reader meets who goes on to the end of an array or object. -/
def tailFault : Tail → Except Fault Unit
  | .closed => .ok ()
  | .cut _ r _ => .error (.broken r)
  | .oddName _ => .error (.broken .grammar)

end Draft

namespace Decode

def depthLimit : Nat := 127

def enter (depth : Nat) : Except Fault Unit :=
  if depthLimit ≤ depth then .error (.broken .grammar) else .ok ()

def text : Decoder String := fun _ d =>
  match d with
  | .str s => .ok s
  | d => .error (d.unexpected "a string")

def bool : Decoder Bool := fun _ d =>
  match d with
  | .bool b => .ok b
  | d => .error (d.unexpected "a boolean")

def int (low high : Int) (expected : String) : Decoder Int := fun _ d =>
  match d with
  | .int i =>
    if low ≤ i ∧ i ≤ high then .ok i
    else .error (.mismatch (.wrongValue (.int i) expected))
  | d => .error (d.unexpected expected)

def int64 : Decoder Int := int (-(Nat.pow 2 63)) (Nat.pow 2 63 - 1) "i64"

def int32 : Decoder Int := int (-(Nat.pow 2 31)) (Nat.pow 2 31 - 1) "i32"

def nat (bits : Nat) (expected : String) : Decoder Nat := fun depth d =>
  (int 0 (Nat.pow 2 bits - 1) expected depth d).map Int.toNat

def nat64 : Decoder Nat := nat 64 "u64"

def nat32 : Decoder Nat := nat 32 "u32"

def real : Decoder Double := fun _ d =>
  match d with
  | .int i => .ok (Double.ofInt i)
  | .float x => .ok x
  | d => .error (d.unexpected "f64")

def instant : Decoder Instant := fun _ d => do
  let s ← match d with
    | .str s => pure s
    | d => throw (d.unexpected "an RFC 3339 formatted date and time string")
  match Timestamp.read? s with
  | some t => return t
  | none => throw (.mismatch (.wrongValue (.str s) "a timestamp"))

def amount : Decoder Decimal := fun _ d =>
  let expected := "a Decimal type representing a fixed-point number"
  match d with
  | .int i => .ok (Decimal.ofInt i)
  | .float x =>
    match Decimal.ofDouble? x with
    | some a => .ok a
    | none => .error (.mismatch (.wrongValue (.float x) expected))
  | .str s =>
    match Decimal.ofText? s with
    | some a => .ok a
    | none => .error (.mismatch (.wrongValue (.str s) expected))
  | d => .error (d.unexpected expected)

def option {α : Type} (decode : Decoder α) : Decoder (Option α) := fun depth d =>
  match d with
  | .null => .ok none
  | d => some <$> decode depth d

def items {α : Type} (decode : Draft → Except Fault α) : List Draft → Except Fault (List α)
  | [] => .ok []
  | d :: rest => do
    let a ← decode d
    let as ← items decode rest
    return a :: as

def list {α : Type} (decode : Decoder α) : Decoder (List α) := fun depth d =>
  match d with
  | .arr ds tail => do
    enter depth
    let as ← items (decode (depth + 1)) ds
    Draft.tailFault tail
    return as
  | d => .error (d.unexpected "a sequence")

mutual

/-- Any JSON value. Of members with one name the last one wins. -/
def json (depth : Nat) : Draft → Except Fault Json
  | .null => .ok .null
  | .bool b => .ok (.bool b)
  | .int i => .ok (.int i)
  | .float x => .ok (.float x)
  | .str s => .ok (.str s)
  | .arr ds tail => do
    enter depth
    let as ← jsonItems (depth + 1) ds
    Draft.tailFault tail
    return .arr as
  | .obj ms tail => do
    enter depth
    let as ← jsonMembers (depth + 1) [] ms
    Draft.tailFault tail
    return .obj as
  | .huge | .mangled => .error (.broken .grammar)
  | .broken r _ | .stuck r _ => .error (.broken r)

def jsonItems (depth : Nat) : List Draft → Except Fault (List Json)
  | [] => .ok []
  | d :: rest => do
    let a ← json depth d
    let as ← jsonItems depth rest
    return a :: as

def jsonMembers (depth : Nat) (found : Table Json) : List (Option String × Draft) →
    Except Fault (Table Json)
  | [] => .ok found
  | (none, _) :: _ => .error (.broken .grammar)
  | (some name, d) :: rest => do
    let a ← json depth d
    jsonMembers depth (found.insert name a) rest

end

def table : Decoder (Table Json) := fun depth d =>
  match d with
  | .obj ms tail => do
    enter depth
    let t ← jsonMembers (depth + 1) [] ms
    Draft.tailFault tail
    return t
  | d => .error (d.unexpected "a map")

/-- One of a set of names, written as a string or as an object with `null` under the name. -/
def variant {α : Type} (variants : List (String × α)) : Decoder α := fun depth d =>
  let find (name : String) : Except Fault α :=
    match variants.find? (·.1 = name) with
    | some (_, a) => .ok a
    | none => .error (.mismatch (.unknownVariant name (variants.map (·.1))))
  match d with
  | .str s => find s
  | .obj ms tail => do
    enter depth
    match ms with
    | [] =>
      match tail with
      | .closed => throw (.broken .grammar)
      | .cut _ r _ => throw (.broken r)
      | .oddName (some b) => throw (.broken b)
      | .oddName none => throw (.mismatch (.wrongType .map "variant identifier"))
    | (none, _) :: _ => throw (.broken .grammar)
    | (some name, d) :: more =>
      let a ← find name
      match d with
      | .null => pure ()
      | d => throw (d.unexpected "unit")
      if !more.isEmpty then throw (.broken .grammar)
      match tail with
      | .closed => return a
      | .cut false r _ => throw (.broken r)
      | _ => throw (.broken .grammar)
  | .mangled => .error (.broken .grammar)
  | .broken r _ => .error (.broken r)
  | _ => .error (.broken .grammar)

end Decode

/-- Whether a field may be missing: never, only from an object, or always. -/
inductive Presence where
  | required
  | optional
  | defaulted
  deriving DecidableEq, Repr

/-- The fields of a record in the order of an array, and how each is read into it. -/
structure Shape (α : Type) where
  title : String
  fields : List (String × Presence)
  start : α
  put : String → α → Decoder α
  /-- Fields of other names are a fault. -/
  exact : Bool := false

namespace Shape
variable {α : Type}

def members (s : Shape α) (depth : Nat) (record : α) (seen : List String) :
    List (Option String × Draft) → Except Fault (α × List String)
  | [] => .ok (record, seen)
  | (none, _) :: _ => .error (.broken .grammar)
  | (some name, d) :: rest =>
    if s.fields.any (·.1 = name) then
      if name ∈ seen then .error (.mismatch (.repeated name))
      else do
        let record ← s.put name record depth d
        members s depth record (name :: seen) rest
    else if s.exact then .error (.mismatch (.unknownField name))
    else do
      d.skip
      members s depth record seen rest

def expected (s : Shape α) : String :=
  let n := s.fields.length
  let plural := if n = 1 then "" else "s"
  s!"struct {s.title} with {n} element{plural}"

/-- Reads fields from the elements of an array; `index` counts those read. -/
def elements (s : Shape α) (depth : Nat) (tail : Tail) (total : Nat) :
    (index : Nat) → List (String × Presence) → List Draft → α → Except Fault α
  | _, [], [], record =>
    match tail with
    | .closed => .ok record
    | .cut false r _ => .error (.broken r)
    | _ => .error (.broken .grammar)
  | _, [], _ :: _, _ => .error (.surplus total)
  | index, (_, presence) :: fields, [], record =>
    match tail with
    | .closed =>
      if presence = .defaulted then elements s depth tail total (index + 1) fields [] record
      else .error (.mismatch (.wrongLength index s.expected))
    | .cut _ r _ => .error (.broken r)
    | .oddName _ => .error (.broken .grammar)
  | index, (name, _) :: fields, d :: rest, record => do
    let record ← s.put name record depth d
    elements s depth tail total (index + 1) fields rest record

def decode (s : Shape α) : Decoder α := fun depth d =>
  match d with
  | .obj ms tail => do
    Decode.enter depth
    let (record, seen) ← s.members (depth + 1) s.start [] ms
    Draft.tailFault tail
    match s.fields.find? fun f => f.2 = .required ∧ f.1 ∉ seen with
    | some (name, _) => throw (.mismatch (.missing name))
    | none => return record
  | .arr ds tail => do
    Decode.enter depth
    s.elements (depth + 1) tail ds.length 0 s.fields ds s.start
  | d => .error (d.unexpected s!"struct {s.title}")

end Shape

namespace Decode

def spanShape : Shape Span where
  title := "Duration"
  fields := [("secs", .required), ("nanos", .required)]
  start := {}
  exact := true
  put name span depth d := match name with
    | "secs" => do return { span with seconds := ← nat64 depth d }
    | _ => do return { span with nanos := ← nat32 depth d }

/-- Nanoseconds over a second count as seconds. -/
def span : Decoder Span := fun depth d => do
  let s ← spanShape.decode depth d
  if Nat.pow 2 64 ≤ s.seconds + s.nanos / billion then throw (.mismatch (.overflow "Duration"))
  return ⟨s.seconds + s.nanos / billion, s.nanos % billion⟩

/-- Decodes a whole text, behind which only blanks may follow. -/
def ofText {α : Type} (decode : Decoder α) (text : String) : Except Fault α := do
  let (d, trailing) := Draft.ofText text
  let a ← decode 0 d
  if trailing then throw (.broken .grammar)
  return a

/-- The same fault of a value that is there already: no text is broken then. -/
def inValue : Fault → Fault
  | .surplus n => .mismatch (.wrongLength n "fewer elements in array")
  | .broken _ => .mismatch (.wrongValue .map "map with a single key")
  | f => f

def ofJson {α : Type} (decode : Decoder α) (j : Json) : Except Fault α :=
  (decode 0 j.draft).mapError inValue

end Decode

namespace Json

def ofText (text : String) : Except Fault Json := Decode.ofText Decode.json text

def ofSpan (s : Span) : Json := .obj [("nanos", .int s.nanos), ("secs", .int s.seconds)]

def ofInstant (t : Instant) : Json := .str (Timestamp.write t)

def ofOption {α : Type} (encode : α → Json) : Option α → Json
  | some a => encode a
  | none => .null

def ofStrings (l : List String) : Json := .arr (l.map .str)

end Json
end Handover
