import Handover.Blackboard.Store
import Handover.Json.Printer

/-!
# Blackboards

A blackboard is the part of a store under one key prefix. It shows the agents by name, the list of their
names, and the swap sessions.
-/

namespace Handover

structure Blackboard where
  /-- What every key of the board starts with. -/
  keyPrefix : String := "blackboard:"
  deriving DecidableEq, Repr

namespace Blackboard

def agentKey (name : String) : String := "agents/" ++ name

def swapKey (session : String) : String := "swaps/" ++ session

/-- Where the names of the agents on the board are listed. -/
def indexKey : String := "index/agents"

/-- A key of the board as the store has it. -/
def fullKey (b : Blackboard) (key : String) : String := b.keyPrefix ++ key

def get (b : Blackboard) (s : Store) (key : String) : Except Error (Option String) :=
  s.get (b.fullKey key)

def set (b : Blackboard) (s : Store) (key value : String) : Except Error Store :=
  s.set (b.fullKey key) value

def delete (b : Blackboard) (s : Store) (key : String) : Except Error Store :=
  s.delete (b.fullKey key)

def getJson {α : Type} (b : Blackboard) (decode : Decoder α) (s : Store) (key : String) :
    Except Error (Option α) := do
  match ← b.get s key with
  | none => return none
  | some text =>
    match Decode.ofText decode text with
    | .ok a => return some a
    | .error f => throw (.json f)

def setJson (b : Blackboard) (s : Store) (key : String) (value : Json) : Except Error Store :=
  b.set s key value.render

end Blackboard
end Handover
