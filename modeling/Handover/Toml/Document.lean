import Handover.Toml.Scalar

/-!
# TOML documents

Lines of a document set values under dotted keys of the table that the last header named. A table is
defined once: by its header, or by keys that lead through it, not by both.
-/

namespace Handover
namespace Toml

inductive Origin where
  /-- It lies on the way to a table that has a header. -/
  | implied
  | dotted
  | headed
  deriving DecidableEq

inductive Node where
  | value (setting : Setting)
  | table (origin : Origin) (entries : List (String × Node))
  | tables (items : List (List (String × Node)))

namespace Node

mutual

def setting : Node → Setting
  | .value s => s
  | .table _ entries => .table (settings entries)
  | .tables items => .list (tableSettings items)

def settings : List (String × Node) → List (String × Setting)
  | [] => []
  | (name, n) :: rest => (name, setting n) :: settings rest

def tableSettings : List (List (String × Node)) → List Setting
  | [] => []
  | entries :: rest => .table (settings entries) :: tableSettings rest

end

/-- Sets a value under a dotted key that ends in `name`. The key may not be there yet, and the table it
ends in may have no header. -/
def put (entries : Table Node) (name : String) (s : Setting) : (path : List String) → Option (Table Node)
  | [] => if entries.contains name then none else some (entries.insert name (.value s))
  | step :: path =>
    match entries.get? step with
    | none => (put [] name s path).map fun inner => entries.insert step (.table .dotted inner)
    | some (.table origin inner) =>
      if origin = .headed ∨ (path.isEmpty ∧ origin ≠ .dotted) then none
      else (put inner name s path).map fun inner => entries.insert step (.table origin inner)
    | some (.tables items) =>
      match items.getLast? with
      | some last =>
        if path.isEmpty then none
        else (put last name s path).map fun last => entries.insert step (.tables (items.dropLast ++ [last]))
      | none => none
    | some (.value _) => none

/-- Changes the table that a header leads to; of a list of tables that is the last one. -/
def modify (entries : Table Node) (change : Table Node → Option (Table Node)) :
    (path : List String) → Option (Table Node)
  | [] => change entries
  | step :: path =>
    match entries.get? step with
    | none => (modify [] change path).map fun inner => entries.insert step (.table .implied inner)
    | some (.table origin inner) =>
      (modify inner change path).map fun inner => entries.insert step (.table origin inner)
    | some (.tables items) =>
      match items.getLast? with
      | some last =>
        (modify last change path).map fun last => entries.insert step (.tables (items.dropLast ++ [last]))
      | none => none
    | some (.value _) => none

/-- Defines the table of a header, which may have been implied by others. -/
def openTable (name : String) (entries : Table Node) : Option (Table Node) :=
  match entries.get? name with
  | none => some (entries.insert name (.table .headed []))
  | some (.table .implied inner) => some (entries.insert name (.table .headed inner))
  | some _ => none

def openItem (name : String) (entries : Table Node) : Option (Table Node) :=
  match entries.get? name with
  | none => some (entries.insert name (.tables [[]]))
  | some (.tables items) => some (entries.insert name (.tables (items ++ [[]])))
  | some _ => none

end Node

/-! ## Keys and values -/

def isBare (c : Char) : Bool := c.isAlphanum || c = '_' || c = '-'

def name : Reader String
  | '"' :: rest => (basic rest).map fun (cs, r) => (String.ofList cs, r)
  | '\x27' :: rest => (literal rest).map fun (cs, r) => (String.ofList cs, r)
  | cs =>
    let bare := cs.takeWhile isBare
    if bare.isEmpty then none else some (String.ofList bare, cs.drop bare.length)

/-- Names with points between them: all but the last, and the last. -/
def key : Nat → Reader (List String × String)
  | 0, _ => none
  | fuel + 1, cs => do
    let (first, cs) ← name (skipBlanks cs)
    match skipBlanks cs with
    | '.' :: cs =>
      let ((path, last), cs) ← key fuel cs
      return ((first :: path, last), cs)
    | cs => return (([], first), cs)

def comment : List Char → Option (List Char)
  | '#' :: rest =>
    let cs := rest.dropWhile isPlain
    if cs.isEmpty || (lineEnd cs).isSome then some cs else none
  | cs => some cs

/-- Blanks, comments and line ends between the items of a list. -/
def skipLines : Nat → List Char → Option (List Char)
  | 0, _ => none
  | fuel + 1, cs => do
    let cs ← comment (skipBlanks cs)
    match lineEnd cs with
    | some rest => skipLines fuel rest
    | none => return cs

mutual

def value : Nat → Reader Setting
  | 0, _ => none
  | fuel + 1, cs =>
    match cs with
    | '[' :: rest => (items fuel rest).map fun (ss, rest) => (.list ss, rest)
    | '\x7b' :: rest => do
      let (entries, rest) ← match skipBlanks rest with
        | '\x7d' :: rest => some ([], rest)
        | rest => members fuel [] rest
      return (.table (Node.settings entries), rest)
    | '"' :: _ | '\x27' :: _ => (string cs).map fun (s, rest) => (.text s, rest)
    | _ => scalar cs

/-- The items of a list up to its closing bracket; a comma may stand behind the last one. -/
def items : Nat → Reader (List Setting)
  | 0, _ => none
  | fuel + 1, cs => do
    match ← skipLines (cs.length + 1) cs with
    | ']' :: rest => return ([], rest)
    | cs =>
      let (s, cs) ← value fuel cs
      match ← skipLines (cs.length + 1) cs with
      | ',' :: rest =>
        let (ss, rest) ← items fuel rest
        return (s :: ss, rest)
      | ']' :: rest => return ([s], rest)
      | _ => none

/-- The entries of a table in braces, all in one line. -/
def members : Nat → Table Node → Reader (Table Node)
  | 0, _, _ => none
  | fuel + 1, entries, cs => do
    let ((path, last), cs) ← key (cs.length + 1) cs
    let cs ← mark '=' cs
    let (s, cs) ← value fuel (skipBlanks cs)
    let entries ← Node.put entries last s path
    match skipBlanks cs with
    | ',' :: rest => members fuel entries rest
    | '\x7d' :: rest => return (entries, rest)
    | _ => none

end

/-! ## Lines -/

def restOfLine (cs : List Char) : Option (List Char) := do
  match ← comment (skipBlanks cs) with
  | [] => return []
  | cs => lineEnd cs

structure Document where
  entries : Table Node := []
  path : List String := []

namespace Document

def openTable (d : Document) (path : List String) (last : String) : Option Document := do
  return ⟨← Node.modify d.entries (Node.openTable last) path, path ++ [last]⟩

def openItem (d : Document) (path : List String) (last : String) : Option Document := do
  return ⟨← Node.modify d.entries (Node.openItem last) path, path ++ [last]⟩

def put (d : Document) (path : List String) (last : String) (s : Setting) : Option Document := do
  return { d with entries := ← Node.modify d.entries (fun t => Node.put t last s path) d.path }

def line (d : Document) (cs : List Char) : Option (Document × List Char) := do
  match cs with
  | '[' :: '[' :: rest =>
    let ((path, last), rest) ← key (rest.length + 1) rest
    let rest ← mark ']' rest
    let rest ← mark ']' rest
    return (← d.openItem path last, ← restOfLine rest)
  | '[' :: rest =>
    let ((path, last), rest) ← key (rest.length + 1) rest
    let rest ← mark ']' rest
    return (← d.openTable path last, ← restOfLine rest)
  | cs =>
    let ((path, last), rest) ← key (cs.length + 1) cs
    let rest ← mark '=' rest
    let (s, rest) ← value (2 * rest.length + 2) (skipBlanks rest)
    return (← d.put path last s, ← restOfLine rest)

def lines : Nat → Document → List Char → Option Document
  | 0, _, _ => none
  | fuel + 1, d, cs => do
    match ← skipLines (cs.length + 1) cs with
    | [] => return d
    | cs =>
      let (d, rest) ← d.line cs
      lines fuel d rest

end Document

/-- The top of a document, or nothing if the text breaks a rule. A mark of the byte order in front of it
does not count. -/
def ofText? (text : String) : Option (Table Setting) :=
  let cs := match text.toList with
    | '\uFEFF' :: rest => rest
    | cs => cs
  (Document.lines (cs.length + 1) {} cs).map fun d => Node.settings d.entries

end Toml
end Handover
