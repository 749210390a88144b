import Handover.Error
import Handover.Table

/-!
# The shared store

Texts under keys, for all who share it. Calls may be refused, by kind and by what the key starts with; a
refused call changes nothing.
-/

namespace Handover

inductive StoreCall where
  | get
  | set
  | delete
  deriving DecidableEq, Repr

namespace StoreCall

def text : StoreCall → String
  | get => "get"
  | set => "set"
  | delete => "delete"

end StoreCall

structure Store where
  entries : Table String := []
  refused : List (StoreCall × String) := []
  deriving DecidableEq, Repr

namespace Store

def check (s : Store) (call : StoreCall) (key : String) : Except Error Unit :=
  if s.refused.any fun r => r.1 = call ∧ r.2.toList.isPrefixOf key.toList then
    .error (.store s!"{call.text} {key} refused")
  else .ok ()

def get (s : Store) (key : String) : Except Error (Option String) := do
  s.check .get key
  return s.entries.get? key

def set (s : Store) (key value : String) : Except Error Store := do
  s.check .set key
  return { s with entries := s.entries.insert key value }

/-- Deleting what is not there succeeds. -/
def delete (s : Store) (key : String) : Except Error Store := do
  s.check .delete key
  return { s with entries := s.entries.erase key }

/-- The keys that start with `lead`, sorted. -/
def keys (s : Store) (lead : String) : List String :=
  s.entries.names.filter fun key => lead.toList.isPrefixOf key.toList

end Store
end Handover
