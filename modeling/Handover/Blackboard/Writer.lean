import Handover.Agent.Wire
import Handover.Blackboard.Basic
import Handover.Session.Wire

/-!
# The board writer

A single writer brings changes to the blackboard, in the order in which they were handed in and one store
call at a time. It keeps the list of names itself, once it has read it. Calls that the store refuses are
given up.
-/

namespace Handover

inductive BoardWrite where
  | putAgent (r : Registration)
  | removeAgent (name : String)
  | putSession (s : Session)
  /-- Writes nothing. Passing it shows that all before it was brought to the board. -/
  | mark (ticket : Nat)
  deriving Repr

structure BoardWriter where
  board : Blackboard := {}
  /-- The names on the board, once they were read. -/
  index : Option (Table Unit) := none
  /-- The list of names changed and is to be written next. -/
  indexDue : Bool := false
  queue : List BoardWrite := []
  passed : List Nat := []
  deriving Repr

namespace BoardWriter

def submit (w : BoardWriter) (writes : List BoardWrite) : BoardWriter :=
  { w with queue := w.queue ++ writes }

/-- The list of names as the board has it; an unreadable one counts as empty. -/
def readIndex (w : BoardWriter) (s : Store) : Table Unit :=
  match w.board.getJson (Decode.list Decode.text) s Blackboard.indexKey with
  | .ok (some names) => Table.ofList (names.map fun n => (n, ()))
  | .ok none | .error _ => []

def orSame (s : Store) : Except Error Store → Store
  | .ok t => t
  | .error _ => s

/-- Brings one write to the board, but for the list of names. -/
def apply (w : BoardWriter) (names : Table Unit) (s : Store) : BoardWrite → BoardWriter × Store
  | .putAgent r =>
    match w.board.setJson s (Blackboard.agentKey r.name) r.encode with
    | .error _ => (w, s)
    | .ok s =>
      if names.contains r.name then (w, s)
      else ({ w with index := some (names.insert r.name ()), indexDue := true }, s)
  | .removeAgent name =>
    let s := orSame s (w.board.delete s (Blackboard.agentKey name))
    if names.contains name then ({ w with index := some (names.erase name), indexDue := true }, s)
    else (w, s)
  | .putSession x => (w, orSame s (w.board.setJson s (Blackboard.swapKey x.id) x.encode))
  | .mark ticket => ({ w with passed := ticket :: w.passed }, s)

def step (w : BoardWriter) (s : Store) : Option (BoardWriter × Store) :=
  match w.index with
  | none => some ({ w with index := some (w.readIndex s) }, s)
  | some names =>
    if w.indexDue then
      some ({ w with indexDue := false },
        orSame s (w.board.setJson s Blackboard.indexKey (.ofStrings names.names)))
    else
      match w.queue with
      | [] => none
      | x :: rest => some ({ w with queue := rest }.apply names s x)

def steps : Nat → BoardWriter → Store → BoardWriter × Store
  | 0, w, s => (w, s)
  | fuel + 1, w, s =>
    match w.step s with
    | none => (w, s)
    | some (w, s) => steps fuel w s

/-- Does all there is to do. Each write takes two steps at most. -/
def catchUp (w : BoardWriter) (s : Store) : BoardWriter × Store := steps (2 * w.queue.length + 2) w s

end BoardWriter
end Handover
