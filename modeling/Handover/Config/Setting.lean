import Handover.Error
import Handover.Json.Value
import Handover.Number.Numeral

/-!
# Settings

A setting is a value found in a configuration source. Settings under one name merge: tables name by name,
anything else by the later one. Names differ only up to case. A setting is fitted to the type that its key
asks for, so that `"on"`, `1` and `true` are all the same flag.
-/

namespace Handover

inductive Setting where
  | nothing
  | bool (value : Bool)
  | int (value : Int)
  | float (value : Double)
  | text (value : String)
  | list (items : List Setting)
  | table (entries : List (String × Setting))
  deriving Repr, Inhabited

namespace Setting

/-- The form of a name in which case does not matter. The Kelvin sign is the only character beyond ASCII
whose small letter is an ASCII one. -/
def foldCase (name : String) : String :=
  name.map fun c => if c.toNat = 0x212A then 'k' else c.toLower

def entries : Setting → Table Setting
  | .table es => es
  | _ => []

mutual

def merge (later : Setting) (there : Option Setting) : Setting :=
  match later with
  | .table [] => there.getD (.table [])
  | .table es => .table (mergeEntries es ((there.map entries).getD []))
  | s => s

def mergeEntries : List (String × Setting) → Table Setting → Table Setting
  | [], t => t
  | (name, s) :: rest, t =>
    let name := foldCase name
    mergeEntries rest (t.insert name (merge s (t.get? name)))

end

/-- Merges a setting in under a path of names. What stands in the way of the path is dropped. -/
def assign (t : Table Setting) (s : Setting) : (path : List String) → Table Setting
  | [] => t
  | [name] => t.insert (foldCase name) (merge s (t.get? (foldCase name)))
  | name :: path =>
    let name := foldCase name
    t.insert name (.table (assign (((t.get? name).map entries).getD []) s path))

def split : List Char → List (List Char)
  | [] => [[]]
  | '.' :: rest => [] :: split rest
  | c :: rest => (split rest).modifyHead (c :: ·)

/-- What stands between the points of a text. -/
def parts (text : String) : List String := (split text.toList).map String.ofList

def isNameChar (c : Char) : Bool := c.isAlphanum || c = '_' || c = '-' || c = ' '

/-- The path that a key at the top of a source stands for: names joined by points. A key of any other
form is a name as a whole. A place in a list, as in `names[2]`, may be named as well; such keys are left out. -/
def pathOf (key : String) : List String :=
  let names := parts key
  if names.all fun n => n ≠ "" ∧ n.toList.all isNameChar then names else [key]

/-- The settings of all sources, of which later ones win. -/
def layered (sources : List (List (String × Setting))) : Table Setting :=
  sources.flatten.foldl (fun t e => assign t e.2 (pathOf e.1)) []

mutual

/-- Whole numbers beyond 64 signed bits become doubles. -/
def ofJson : Json → Setting
  | .null => .nothing
  | .bool b => .bool b
  | .int i => if i < Nat.pow 2 63 then .int i else .float (Double.ofInt i)
  | .float x => .float x
  | .str s => .text s
  | .arr items => .list (ofItems items)
  | .obj members => .table (ofMembers members)

def ofItems : List Json → List Setting
  | [] => []
  | j :: rest => ofJson j :: ofItems rest

def ofMembers : List (String × Json) → List (String × Setting)
  | [] => []
  | (name, j) :: rest => (name, ofJson j) :: ofMembers rest

end

/-- A plain text is a flag if it reads as one, else a number if it reads as one. -/
def ofText (text : String) : Setting :=
  let cs := text.toList
  let word := foldCase text
  if word = "true" then .bool true
  else if word = "false" then .bool false
  else match Numeral.int64? cs with
    | some i => .int i
    | none =>
      match Numeral.double? cs with
      | some x => .float x
      | none => .text text

def unfit (expected : String) : ConfigError := .wrongType s!"invalid type: expected {expected}"

def asText : Setting → Except ConfigError String
  | .text s => .ok s
  | .bool b => .ok (if b then "true" else "false")
  | .int i => .ok (toString i)
  | .float x => .ok x.plain
  | .nothing | .list _ | .table _ => .error (unfit "a string")

def asNat : Setting → Except ConfigError Nat
  | .int i => if 0 ≤ i then .ok i.toNat else .error (unfit "an unsigned 64 bit integer")
  | .bool b => .ok b.toNat
  | .float x => .ok (x.toNatWithin (Nat.pow 2 64 - 1))
  | .text s =>
    let word := foldCase s
    if word ∈ ["true", "on", "yes"] then .ok 1
    else if word ∈ ["false", "off", "no"] then .ok 0
    else match Numeral.nat64? s.toList with
      | some n => .ok n
      | none => .error (unfit "an unsigned 64 bit integer")
  | .nothing | .list _ | .table _ => .error (unfit "an unsigned 64 bit integer")

def asBool : Setting → Except ConfigError Bool
  | .bool b => .ok b
  | .int i => .ok (i != 0)
  | .float x => .ok !x.isZero
  | .text s =>
    let word := foldCase s
    if word ∈ ["1", "true", "on", "yes"] then .ok true
    else if word ∈ ["0", "false", "off", "no"] then .ok false
    else .error (unfit "a boolean")
  | .nothing | .list _ | .table _ => .error (unfit "a boolean")

end Setting
end Handover
