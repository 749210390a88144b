import Handover.Blackboard.Writer
import Handover.Proofs.Json

/-!
# What a board shows

A board on a store that refuses nothing is described by what it shows under a key, and each call by what the board
shows after it. The keys of agents, of sessions and of the list of names are all different.
-/

namespace Handover

theorem append_cancel {a b c : String} (same : a ++ b = a ++ c) : b = c := by
  have lists := congrArg String.toList same
  simp only [String.toList_append, List.append_cancel_left_eq, String.toList_inj] at lists
  exact lists

namespace Store

/-- Nothing is refused. -/
def Open (s : Store) : Prop := s.refused = []

variable {s t : Store} {key value : String}

theorem check_open (opened : s.Open) (call : StoreCall) (key : String) : s.check call key = .ok () := by
  have none : s.refused = [] := opened
  simp [check, none]

theorem get_open (opened : s.Open) (key : String) : s.get key = .ok (s.entries.get? key) := by
  rw [get, check_open opened]
  rfl

theorem set_open (opened : s.Open) (key value : String) :
    s.set key value = .ok { s with entries := s.entries.insert key value } := by
  rw [set, check_open opened]
  rfl

theorem delete_open (opened : s.Open) (key : String) :
    s.delete key = .ok { s with entries := s.entries.erase key } := by
  rw [delete, check_open opened]
  rfl

end Store

namespace Blackboard
variable {b : Blackboard} {s : Store} {key other : String} {α : Type} {decode : Decoder α} {value : Json}

/-- What the board shows under a key, read by `decode`. -/
def Shows (b : Blackboard) (s : Store) (decode : Decoder α) (key : String) (a : α) : Prop :=
  b.getJson decode s key = .ok (some a)

/-- The store after a value was written to the board. -/
def written (b : Blackboard) (s : Store) (key : String) (value : Json) : Store :=
  { s with entries := s.entries.insert (b.fullKey key) value.render }

/-- The store after a key was taken from the board. -/
def cleared (b : Blackboard) (s : Store) (key : String) : Store :=
  { s with entries := s.entries.erase (b.fullKey key) }

theorem fullKey_ne (b : Blackboard) (differ : key ≠ other) : b.fullKey other ≠ b.fullKey key :=
  fun same => differ (append_cancel same).symm

theorem agentKey_ne {name name' : String} (differ : name' ≠ name) : agentKey name ≠ agentKey name' :=
  fun same => differ (append_cancel same).symm

theorem agentKey_ne_indexKey (name : String) : agentKey name ≠ indexKey := by
  intro same
  have lists := congrArg String.toList same
  simp [agentKey, indexKey] at lists

theorem swapKey_ne_indexKey (session : String) : swapKey session ≠ indexKey := by
  intro same
  have lists := congrArg String.toList same
  simp [swapKey, indexKey] at lists

theorem swapKey_ne_agentKey (session name : String) : swapKey session ≠ agentKey name := by
  intro same
  have lists := congrArg String.toList same
  simp [swapKey, agentKey] at lists

theorem getJson_open (opened : s.Open) (decode : Decoder α) (key : String) :
    b.getJson decode s key = match s.entries.get? (b.fullKey key) with
      | none => .ok none
      | some text => match Decode.ofText decode text with
        | .ok a => .ok (some a)
        | .error f => .error (.json f) := by
  rw [getJson, get, Store.get_open opened]
  rfl

theorem shows_unique {a a' : α} (first : b.Shows s decode key a) (second : b.Shows s decode key a') : a = a' := by
  have same := first.symm.trans second
  simpa using same

theorem setJson_open (opened : s.Open) (key : String) (value : Json) :
    b.setJson s key value = .ok (b.written s key value) :=
  Store.set_open opened _ _

theorem delete_open (opened : s.Open) (key : String) : b.delete s key = .ok (b.cleared s key) :=
  Store.delete_open opened _

theorem written_open (opened : s.Open) (key : String) (value : Json) : (b.written s key value).Open := opened

theorem cleared_open (opened : s.Open) (key : String) : (b.cleared s key).Open := opened

theorem written_shows {a : α} (opened : s.Open) (key : String) (reads : Decode.ofText decode value.render = .ok a) :
    b.Shows (b.written s key value) decode key a := by
  rw [Shows, getJson_open (written_open opened key value), written, Table.get?_insert_self]
  simp only [reads]

theorem written_elsewhere (opened : s.Open) (decode : Decoder α) (value : Json) (differ : key ≠ other) (a : α) :
    b.Shows (b.written s key value) decode other a ↔ b.Shows s decode other a := by
  have kept := Table.get?_insert_of_ne (fullKey_ne b differ) value.render s.entries
  rw [Shows, Shows, getJson_open (written_open opened key value), getJson_open opened, written, kept]

theorem cleared_elsewhere (opened : s.Open) (decode : Decoder α) (differ : key ≠ other) (a : α) :
    b.Shows (b.cleared s key) decode other a ↔ b.Shows s decode other a := by
  have kept := Table.get?_erase_of_ne (fullKey_ne b differ) s.entries
  rw [Shows, Shows, getJson_open (cleared_open opened key), getJson_open opened, cleared, kept]

theorem cleared_shows (opened : s.Open) (decode : Decoder α) (key : String) (a : α) :
    ¬ b.Shows (b.cleared s key) decode key a := by
  rw [Shows, getJson_open (cleared_open opened key), cleared, Table.get?_erase_self]
  simp

end Blackboard
end Handover
