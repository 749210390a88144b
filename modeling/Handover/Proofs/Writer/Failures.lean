import Handover.Proofs.Call
import Handover.Proofs.Writer

/-!
# The list of names over a store that refuses calls

A store may refuse any call, and what it refuses the writer gives up. `Logbook` keeps beside the writer what it
dealt with and what the store let it do. A name that is in the list on the board and in the writer's own is `Secure`:
it stays in both until a change takes it out. The writer does not know whether its own list is the one on the board.
It takes a list that it could not read for an empty one, and a list that was refused it does not write again until a
name comes or goes.
-/

namespace Handover

namespace Store

def refusing (s : Store) (refused : List (StoreCall × String)) : Store := { s with refused }

end Store

namespace Blackboard
variable {b : Blackboard} {s : Store} {key name : String} {value : Json} {names : List String}
  {refused : List (StoreCall × String)}

/-- The list of names that is stored for the board has this one, whatever calls are refused now. -/
def Lists (b : Blackboard) (s : Store) (name : String) : Prop :=
  ∃ names, b.Shows (s.refusing []) (Decode.list Decode.text) indexKey names ∧ name ∈ names

theorem setJson_cases (b : Blackboard) (s : Store) (key : String) (value : Json) :
    b.setJson s key value = .ok (b.written s key value) ∨ ∃ e, b.setJson s key value = .error e := by
  cases checked : s.check .set (b.fullKey key) with
  | error e =>
    right
    exact ⟨e, by simp [setJson, set, Store.set, checked, bind, Except.bind]⟩
  | ok u =>
    left
    simp [setJson, set, Store.set, checked, bind, Except.bind, pure, Except.pure, written]

theorem delete_cases (b : Blackboard) (s : Store) (key : String) :
    b.delete s key = .ok (b.cleared s key) ∨ ∃ e, b.delete s key = .error e := by
  cases checked : s.check .delete (b.fullKey key) with
  | error e =>
    right
    exact ⟨e, by simp [delete, Store.delete, checked, bind, Except.bind]⟩
  | ok u =>
    left
    simp [delete, Store.delete, checked, bind, Except.bind, pure, Except.pure, cleared]

theorem written_lists_other (differ : key ≠ indexKey) (value : Json) (name : String) :
    b.Lists (b.written s key value) name ↔ b.Lists s name := by
  have opened : (s.refusing []).Open := rfl
  unfold Lists
  refine exists_congr fun names => and_congr_left fun _ => ?_
  exact written_elsewhere opened (Decode.list Decode.text) value differ names

theorem cleared_lists_other (differ : key ≠ indexKey) (name : String) :
    b.Lists (b.cleared s key) name ↔ b.Lists s name := by
  have opened : (s.refusing []).Open := rfl
  unfold Lists
  refine exists_congr fun names => and_congr_left fun _ => ?_
  exact cleared_elsewhere opened (Decode.list Decode.text) differ names

theorem written_lists (there : name ∈ names) : b.Lists (b.written s indexKey (.ofStrings names)) name := by
  have opened : (s.refusing []).Open := rfl
  exact ⟨names, written_shows opened indexKey (Decode.ofText_strings names), there⟩

theorem getJson_stored {α : Type} {decode : Decoder α} {found : Option α}
    (read : b.getJson decode s key = .ok found) : b.getJson decode (s.refusing []) key = .ok found := by
  have opened : (s.refusing []).Open := rfl
  cases checked : s.check .get (b.fullKey key) with
  | error e => simp [getJson, get, Store.get, checked, bind, Except.bind] at read
  | ok u =>
    rw [getJson_open opened]
    simp only [getJson, get, Store.get, checked, bind, Except.bind, pure, Except.pure] at read
    exact read

end Blackboard

namespace BoardWriter
open Blackboard
variable {w w' : BoardWriter} {s s' : Store} {x : BoardWrite} {index : Table Unit} {name : String}

def reads (w : BoardWriter) (s : Store) : Bool := (w.board.getJson (Decode.list Decode.text) s indexKey).isOk

/-- Whether the store does what is asked of it for a change, but for the list of names. -/
def stores (w : BoardWriter) (s : Store) : BoardWrite → Bool
  | .putAgent a => (w.board.setJson s (agentKey a.name) a.encode).isOk
  | .removeAgent name => (w.board.delete s (agentKey name)).isOk
  | .putSession x => (w.board.setJson s (swapKey x.id) x.encode).isOk
  | .mark _ => true

theorem readIndex_lists (there : (w.readIndex s).contains name = true) : w.board.Lists s name := by
  unfold readIndex at there
  split at there
  · rename_i names read
    exact ⟨names, getJson_stored read, (Table.contains_ofList names).mp there⟩
  · cases there
  · cases there

theorem lists_readIndex (readable : w.reads s = true) (listed : w.board.Lists s name) :
    (w.readIndex s).contains name = true := by
  obtain ⟨names, shown, there⟩ := listed
  cases read : w.board.getJson (Decode.list Decode.text) s indexKey with
  | error e => simp [reads, read, Except.isOk, Except.toBool] at readable
  | ok found =>
    have same := (getJson_stored read).symm.trans shown
    cases same
    exact (readIndex_contains read).mpr there

structure Handled (w : BoardWriter) (index : Table Unit) (s : Store) (x : BoardWrite) (w' : BoardWriter) (s' : Store) :
    Prop where
  board : w'.board = w.board
  queue : w'.queue = w.queue
  lists : ∀ name, w.board.Lists s' name ↔ w.board.Lists s name
  index : ∃ index', w'.index = some index' ∧ (w'.indexDue = false → index' = index) ∧
    (∀ name, x ≠ .removeAgent name → index.contains name = true → index'.contains name = true) ∧
    ∀ a, x = .putAgent a → w.stores s x = true → index'.contains a.name = true

theorem put_handled (kept : w.index = some index) (a : Registration) :
    Handled w index s (.putAgent a) (w.apply index s (.putAgent a)).1 (w.apply index s (.putAgent a)).2 := by
  have elsewhere := written_lists_other (b := w.board) (s := s) (agentKey_ne_indexKey a.name) a.encode
  rcases setJson_cases w.board s (agentKey a.name) a.encode with done | ⟨e, refused⟩
  · simp only [apply, done]
    split
    · rename_i listed
      refine ⟨rfl, rfl, elsewhere, index, kept, fun _ => rfl, fun _ _ there => there, ?_⟩
      rintro _ ⟨⟩ _
      exact listed
    · refine ⟨rfl, rfl, elsewhere, _, rfl, (fun due => Bool.noConfusion due), ?_, ?_⟩
      · intro name _ there
        simp [Table.contains_insert, there]
      · rintro _ ⟨⟩ _
        simp [Table.contains_insert]
  · simp only [apply, refused]
    refine ⟨rfl, rfl, fun _ => Iff.rfl, index, kept, fun _ => rfl, fun _ _ there => there, ?_⟩
    rintro _ ⟨⟩ stored
    simp [stores, refused, Except.isOk, Except.toBool] at stored

theorem remove_handled (kept : w.index = some index) (gone : String) :
    Handled w index s (.removeAgent gone) (w.apply index s (.removeAgent gone)).1
      (w.apply index s (.removeAgent gone)).2 := by
  have lists : ∀ name, w.board.Lists (orSame s (w.board.delete s (agentKey gone))) name ↔ w.board.Lists s name := by
    intro name
    rcases delete_cases w.board s (agentKey gone) with done | ⟨e, refused⟩
    · rw [done]
      exact cleared_lists_other (agentKey_ne_indexKey gone) name
    · rw [refused]
      exact Iff.rfl
  simp only [apply]
  split
  · refine ⟨rfl, rfl, lists, _, rfl, (fun due => Bool.noConfusion due), ?_, by simp⟩
    intro name other there
    have differ : name ≠ gone := fun same => other (congrArg BoardWrite.removeAgent same.symm)
    rw [Table.contains_erase_other differ]
    exact there
  · exact ⟨rfl, rfl, lists, index, kept, fun _ => rfl, fun _ _ there => there, by simp⟩

theorem apply_handled (kept : w.index = some index) (x : BoardWrite) :
    Handled w index s x (w.apply index s x).1 (w.apply index s x).2 := by
  cases x with
  | putAgent a => exact put_handled kept a
  | removeAgent gone => exact remove_handled kept gone
  | putSession session =>
    have lists : ∀ name, w.board.Lists (orSame s (w.board.setJson s (swapKey session.id) session.encode)) name ↔
        w.board.Lists s name := by
      intro name
      rcases setJson_cases w.board s (swapKey session.id) session.encode with done | ⟨e, refused⟩
      · rw [done]
        exact written_lists_other (swapKey_ne_indexKey session.id) session.encode name
      · rw [refused]
        exact Iff.rfl
    exact ⟨rfl, rfl, lists, index, kept, fun _ => rfl, fun _ _ there => there, by simp⟩
  | mark ticket =>
    exact ⟨rfl, rfl, fun _ => Iff.rfl, index, kept, fun _ => rfl, fun _ _ there => there,
      by simp⟩

end BoardWriter

structure Dealt where
  write : BoardWrite
  /-- The store did what was asked of it for the change, but for the list of names. -/
  stored : Bool
  /-- Whether the list of names was written behind the change, if the writer tried to. -/
  filed : Option Bool := none

structure Logbook where
  writer : BoardWriter
  store : Store
  /-- Whether the list of names could be read, once the writer tried to. -/
  read : Option Bool := none
  /-- The changes that were dealt with, the latest first. -/
  dealt : List Dealt := []

inductive Shift where
  | submit (x : BoardWrite)
  /-- The writer goes on, over a store that refuses these calls. -/
  | work (refused : List (StoreCall × String))

/-- Whether the list of names was written the last time that the writer tried to. -/
def lastFiled (dealt : List Dealt) : Option Bool := dealt.findSome? Dealt.filed

def file (filed : Bool) : List Dealt → List Dealt
  | [] => []
  | d :: earlier => { d with filed := some filed } :: earlier

namespace Logbook
open Blackboard BoardWriter
def opened (board : Blackboard) (s : Store) : Logbook := { writer := { board }, store := s }

def note (l : Logbook) : Logbook :=
  match l.writer.index with
  | none => { l with read := some (l.writer.reads l.store) }
  | some index =>
    if l.writer.indexDue then
      { l with dealt := file (l.writer.board.setJson l.store indexKey (.ofStrings index.names)).isOk l.dealt }
    else
      match l.writer.queue with
      | [] => l
      | x :: _ => { l with dealt := { write := x, stored := l.writer.stores l.store x } :: l.dealt }

def work (l : Logbook) : Logbook :=
  match l.writer.step l.store with
  | none => l
  | some (writer, store) => { l.note with writer, store }

def act (l : Logbook) : Shift → Logbook
  | .submit x => { l with writer := l.writer.submit [x] }
  | .work refused => { l with store := l.store.refusing refused }.work

def run (l : Logbook) (shifts : List Shift) : Logbook := shifts.foldl act l

/-- All that a step may come to. -/
inductive Works (l : Logbook) : Logbook → Prop where
  | rested : Works l l
  | read (unread : l.writer.index = none) :
      Works l
        { l with
          writer := { l.writer with index := some (l.writer.readIndex l.store) }
          read := some (l.writer.reads l.store) }
  | filed {names : Table Unit} (kept : l.writer.index = some names) (due : l.writer.indexDue = true) :
      Works l
        { l with
          writer := { l.writer with indexDue := false }
          store := l.writer.board.written l.store indexKey (.ofStrings names.names)
          dealt := file true l.dealt }
  | unfiled (due : l.writer.indexDue = true) :
      Works l { l with writer := { l.writer with indexDue := false }, dealt := file false l.dealt }
  | dealt {names : Table Unit} {x : BoardWrite} {rest : List BoardWrite} {w : BoardWriter} {s : Store}
      (kept : l.writer.index = some names) (calm : l.writer.indexDue = false) (queued : l.writer.queue = x :: rest)
      (handled : Handled { l.writer with queue := rest } names l.store x w s) :
      Works l
        { l with
          writer := w
          store := s
          dealt := { write := x, stored := l.writer.stores l.store x } :: l.dealt }

variable {l l' : Logbook} {name : String}

theorem work_works (l : Logbook) : Works l l.work := by
  unfold work
  cases stepped : l.writer.step l.store with
  | none => exact .rested
  | some next =>
    unfold step at stepped
    split at stepped
    · rename_i unread
      have noted : l.note = { l with read := some (l.writer.reads l.store) } := by simp only [note, unread]
      cases stepped
      rw [noted]
      exact .read unread
    · rename_i names kept
      split at stepped
      · rename_i due
        have noted : l.note = { l with
            dealt := file (l.writer.board.setJson l.store indexKey (.ofStrings names.names)).isOk l.dealt } := by
          simp only [note, kept, due, if_true]
        cases stepped
        rw [noted]
        rcases setJson_cases l.writer.board l.store indexKey (.ofStrings names.names) with done | ⟨e, refused⟩
        · rw [done]
          exact .filed kept due
        · rw [refused]
          exact .unfiled due
      · rename_i notDue
        have calm : l.writer.indexDue = false := by simpa using notDue
        split at stepped
        · cases stepped
        · rename_i x rest queued
          have noted : l.note = { l with
              dealt := { write := x, stored := l.writer.stores l.store x } :: l.dealt } := by
            simp [note, kept, calm, queued]
          have handled := apply_handled (w := { l.writer with queue := rest }) (s := l.store) kept x
          rw [Option.some.inj stepped] at handled
          rw [noted]
          exact .dealt kept calm queued handled

/-- The name is in the list on the board, and in the writer's own. -/
structure Secure (l : Logbook) (name : String) : Prop where
  listed : l.writer.board.Lists l.store name
  held : ∀ index, l.writer.index = some index → index.contains name = true

theorem Secure.works (secure : l.Secure name) (works : Works l l')
    (readable : l.writer.index = none → l.writer.reads l.store = true)
    (spared : ∀ d earlier, l'.dealt = d :: earlier → d.write ≠ .removeAgent name) : l'.Secure name := by
  obtain ⟨listed, held⟩ := secure
  cases works with
  | rested => exact ⟨listed, held⟩
  | read unread =>
    refine ⟨listed, ?_⟩
    rintro _ ⟨⟩
    exact lists_readIndex (readable unread) listed
  | filed kept => exact ⟨written_lists (Table.contains_iff_mem.mp (held _ kept)), held⟩
  | unfiled => exact ⟨listed, held⟩
  | dealt kept calm queued handled =>
    obtain ⟨index', kept', _, others, _⟩ := handled.index
    refine ⟨?_, ?_⟩
    · dsimp only
      rw [handled.board]
      exact (handled.lists name).mpr listed
    · intro index there
      cases kept'.symm.trans there
      exact others name (spared _ _ rfl) (held _ kept)

/-- The agent was put on the board, every call for that was done, and its name was not removed since. -/
structure Puts (l : Logbook) (a : Registration) (later : List Dealt) (d : Dealt) (earlier : List Dealt) : Prop where
  split : l.dealt = later ++ d :: earlier
  put : d.write = .putAgent a
  stored : d.stored = true
  unfailed : d.filed ≠ some false
  finished : later = [] → l.writer.indexDue = false
  unremoved : ∀ x ∈ later, x.write ≠ .removeAgent a.name

/-- What holds of a logbook that was begun over a store in which these names were listed. -/
structure Accurate (board : Blackboard) (listed : String → Prop) (l : Logbook) : Prop where
  board : l.writer.board = board
  unread : l.writer.index = none → l.read = none ∧ l.dealt = [] ∧ l.writer.indexDue = false
  /-- The writer's list is to be written for the latest change. -/
  due : l.writer.indexDue = true → ∃ d earlier, l.dealt = d :: earlier ∧ ∀ a, d.write = .putAgent a →
    d.stored = true → ∀ index, l.writer.index = some index → index.contains a.name = true
  /-- The list on the board has the names of the writer's, unless the writer last failed to write it. -/
  current : l.writer.indexDue = false → lastFiled l.dealt ≠ some false → ∀ index, l.writer.index = some index →
    ∀ name, index.contains name = true → l.writer.board.Lists l.store name
  put : ∀ a later d earlier, l.Puts a later d earlier → lastFiled (d :: earlier) ≠ some false → l.Secure a.name
  first : ∀ name, listed name → l.read ≠ some false → (∀ d ∈ l.dealt, d.write ≠ .removeAgent name) →
    l.Secure name

namespace Accurate
variable {board : Blackboard} {listed : String → Prop} {a : Registration} {d : Dealt} {later earlier : List Dealt}

theorem works_current (accurate : l.Accurate board listed) (works : Works l l') :
    l'.writer.indexDue = false → lastFiled l'.dealt ≠ some false → ∀ index, l'.writer.index = some index →
      ∀ name, index.contains name = true → l'.writer.board.Lists l'.store name := by
  intro calm' filed index kept' name there
  cases works with
  | rested => exact accurate.current calm' filed index kept' name there
  | read =>
    cases kept'
    exact readIndex_lists there
  | filed kept =>
    cases kept.symm.trans kept'
    exact written_lists (Table.contains_iff_mem.mp there)
  | unfiled due =>
    -- The list that was refused is that of the latest change, so nothing is claimed until the next one is written.
    obtain ⟨d, earlier, dealt, _⟩ := accurate.due due
    rw [dealt] at filed
    exact absurd rfl filed
  | dealt kept calm queued handled =>
    -- A change that leaves the writer's list as it was leaves the one on the board alone too.
    obtain ⟨index', now, same, _⟩ := handled.index
    cases now.symm.trans kept'
    rw [same calm'] at there
    dsimp only
    rw [handled.board]
    exact (handled.lists name).mpr (accurate.current calm filed _ kept name there)

theorem works_due (accurate : l.Accurate board listed) (works : Works l l') :
    l'.writer.indexDue = true → ∃ d earlier, l'.dealt = d :: earlier ∧ ∀ a, d.write = .putAgent a →
      d.stored = true → ∀ index, l'.writer.index = some index → index.contains a.name = true := by
  intro due'
  cases works with
  | rested => exact accurate.due due'
  | read unread =>
    have calm := (accurate.unread unread).2.2
    cases calm.symm.trans due'
  | filed | unfiled => cases due'
  | dealt _ _ _ handled =>
    obtain ⟨index', now, _, _, own⟩ := handled.index
    refine ⟨_, _, rfl, fun a put stored index kept' => ?_⟩
    cases now.symm.trans kept'
    exact own a put stored

theorem puts_before (accurate : l.Accurate board listed) (works : Works l l') {y : Dealt}
    (puts : l'.Puts a (y :: later) d earlier) : ∃ later, l.Puts a later d earlier := by
  obtain ⟨split, put, stored, unfailed, _, unremoved⟩ := puts
  have others : ∀ x ∈ later, x.write ≠ .removeAgent a.name := fun x there => unremoved x (.tail _ there)
  -- The list of names was written, or refused, behind the change that was the latest then.
  have behind : ∀ (b : Bool), l.writer.indexDue = true → file b l.dealt = y :: later ++ d :: earlier →
      ∃ later, l.Puts a later d earlier := by
    intro b due split
    obtain ⟨last, before, dealt, _⟩ := accurate.due due
    rw [dealt] at split
    obtain ⟨rfl, rfl⟩ := List.cons.inj split
    refine ⟨last :: later, dealt, put, stored, unfailed, nofun, fun x there => ?_⟩
    rcases List.mem_cons.mp there with rfl | there
    · exact unremoved { x with filed := some b } (.head _)
    · exact others x there
  cases works with
  | rested => exact ⟨y :: later, split, put, stored, unfailed, nofun, unremoved⟩
  | read unread =>
    have none : l.dealt = [] := (accurate.unread unread).2.1
    cases none.symm.trans split
  | filed _ due => exact behind true due split
  | unfiled due => exact behind false due split
  | dealt _ calm =>
    obtain ⟨_, same⟩ := List.cons.inj split
    exact ⟨later, same, put, stored, unfailed, fun _ => calm, others⟩

theorem works_put (accurate : l.Accurate board listed) (works : Works l l') (puts : l'.Puts a later d earlier)
    (filed : lastFiled (d :: earlier) ≠ some false) : l'.Secure a.name := by
  cases later with
  | cons y later =>
    -- Other changes came after the put, so the name was secure before this step.
    obtain ⟨before, was⟩ := accurate.puts_before works puts
    refine (accurate.put a before d earlier was filed).works works ?_ ?_
    · intro unread
      have none : l.dealt = [] := (accurate.unread unread).2.1
      simp [was.split] at none
    · intro x rest same
      rw [puts.split] at same
      cases same
      exact puts.unremoved y (.head _)
  | nil =>
    -- The put was the latest change: its name is in the writer's list, and that list is the one on the board.
    have calm' := puts.finished rfl
    have split : l'.dealt = d :: earlier := puts.split
    have known : ∃ names, l'.writer.index = some names ∧ names.contains a.name = true := by
      cases works with
      | rested =>
        have secure := accurate.put a [] d earlier puts filed
        cases kept : l.writer.index with
        | none =>
          have none : l.dealt = [] := (accurate.unread kept).2.1
          cases none.symm.trans split
        | some names => exact ⟨names, rfl, secure.held names kept⟩
      | read unread =>
        have none : l.dealt = [] := (accurate.unread unread).2.1
        cases none.symm.trans split
      | filed kept due =>
        obtain ⟨last, before, dealt, own⟩ := accurate.due due
        dsimp only at split
        rw [dealt] at split
        cases split
        exact ⟨_, kept, own a puts.put puts.stored _ kept⟩
      | unfiled due =>
        obtain ⟨last, before, dealt, _⟩ := accurate.due due
        dsimp only at split
        rw [dealt] at split
        cases split
        exact absurd rfl puts.unfailed
      | dealt _ _ _ handled =>
        obtain ⟨names, now, _, _, own⟩ := handled.index
        cases split
        exact ⟨names, now, own a puts.put puts.stored⟩
    obtain ⟨names, kept, there⟩ := known
    refine ⟨accurate.works_current works calm' (split ▸ filed) names kept a.name there, ?_⟩
    intro index same
    cases kept.symm.trans same
    exact there

theorem works_first (accurate : l.Accurate board listed) (works : Works l l') (there : listed name)
    (readable : l'.read ≠ some false) (spared : ∀ d ∈ l'.dealt, d.write ≠ .removeAgent name) : l'.Secure name := by
  have next : (l.read ≠ some false) → (l.writer.index = none → l.writer.reads l.store = true) →
      (∀ d ∈ l.dealt, d.write ≠ .removeAgent name) → l'.Secure name := by
    intro readable known spared'
    refine (accurate.first name there readable spared').works works known ?_
    intro d earlier same
    exact spared d (same ▸ .head _)
  have filed : ∀ b, file b l.dealt = l'.dealt → ∀ d ∈ l.dealt, d.write ≠ .removeAgent name := by
    intro b same d there
    rw [← same] at spared
    cases dealt : l.dealt with
    | nil =>
      rw [dealt] at there
      cases there
    | cons last earlier =>
      rw [dealt] at spared there
      rcases List.mem_cons.mp there with rfl | there
      · exact spared { d with filed := some b } (.head _)
      · exact spared d (.tail _ there)
  have begun : ∀ {names}, l.writer.index = some names → l.writer.index = none → l.writer.reads l.store = true :=
    fun kept unread => nomatch kept.symm.trans unread
  cases works with
  | rested => exact accurate.first name there readable spared
  | read unread =>
    refine next (by simp [(accurate.unread unread).1]) (fun _ => ?_) spared
    cases read : l.writer.reads l.store with
    | true => rfl
    | false => exact absurd (congrArg some read) readable
  | filed kept due => exact next readable (begun kept) (filed true rfl)
  | unfiled due =>
    refine next readable (fun unread => ?_) (filed false rfl)
    cases due.symm.trans (accurate.unread unread).2.2
  | dealt kept => exact next readable (begun kept) fun d there => spared d (.tail _ there)

theorem works (accurate : l.Accurate board listed) (works : Works l l') : l'.Accurate board listed where
  board := by
    have same := accurate.board
    cases works with
    | dealt _ _ _ handled => exact handled.board.trans same
    | _ => exact same
  unread := by
    intro unread'
    cases works with
    | rested => exact accurate.unread unread'
    | read => cases unread'
    | filed kept => cases kept.symm.trans unread'
    | unfiled due => cases due.symm.trans (accurate.unread unread').2.2
    | dealt _ _ _ handled =>
      obtain ⟨index', now, _⟩ := handled.index
      cases now.symm.trans unread'
  due := accurate.works_due works
  current := accurate.works_current works
  put _ _ _ _ := accurate.works_put works
  first _ := accurate.works_first works

theorem aside (accurate : l.Accurate board listed) (queue : List BoardWrite)
    (refused : List (StoreCall × String)) :
    Accurate board listed
      { l with writer := { l.writer with queue }, store := l.store.refusing refused } where
  board := accurate.board
  unread := accurate.unread
  due := accurate.due
  current := accurate.current
  put a later d earlier puts filed := by
    obtain ⟨split, put, stored, unfailed, finished, unremoved⟩ := puts
    have was : l.Puts a later d earlier := ⟨split, put, stored, unfailed, finished, unremoved⟩
    obtain ⟨listed, held⟩ := accurate.put a later d earlier was filed
    exact ⟨listed, held⟩
  first name there readable spared := by
    obtain ⟨listed, held⟩ := accurate.first name there readable spared
    exact ⟨listed, held⟩

theorem opened (board : Blackboard) (s : Store) : Accurate board (board.Lists s) (Logbook.opened board s) where
  board := rfl
  unread _ := ⟨rfl, rfl, rfl⟩
  due := nofun
  current _ _ _ := nofun
  put a later d earlier puts := by
    have split : [] = later ++ d :: earlier := puts.split
    simp at split
  first name there _ _ := ⟨there, nofun⟩

theorem act (accurate : l.Accurate board listed) (shift : Shift) : (l.act shift).Accurate board listed := by
  cases shift with
  | submit x => exact accurate.aside (l.writer.queue ++ [x]) l.store.refused
  | work refused => exact (accurate.aside l.writer.queue refused).works (work_works _)

theorem run (accurate : l.Accurate board listed) (shifts : List Shift) : (l.run shifts).Accurate board listed := by
  induction shifts generalizing l with
  | nil => exact accurate
  | cons shift rest ih => exact ih (accurate.act shift)

end Accurate

/-- Whatever calls the store refuses, a name stays listed on the board from its last put, if every call for that was
done and the list had not been refused when it was last written, and a name that was listed when the writer
came stays listed if the writer could read the list; until a change takes the name out. -/
theorem names_stay_listed (board : Blackboard) (s : Store) (shifts : List Shift) :
    (∀ a later d earlier, ((opened board s).run shifts).Puts a later d earlier →
      lastFiled (d :: earlier) ≠ some false → board.Lists ((opened board s).run shifts).store a.name) ∧
    ∀ name, board.Lists s name → ((opened board s).run shifts).read ≠ some false →
      (∀ d ∈ ((opened board s).run shifts).dealt, d.write ≠ .removeAgent name) →
      board.Lists ((opened board s).run shifts).store name := by
  have accurate := (Accurate.opened board s).run shifts
  constructor
  · intro a later d earlier puts filed
    have own := (accurate.put a later d earlier puts filed).listed
    rw [accurate.board] at own
    exact own
  · intro name there readable spared
    have own := (accurate.first name there readable spared).listed
    rw [accurate.board] at own
    exact own

end Logbook

namespace Sample

def listing : Store := ({} : Blackboard).written {} Blackboard.indexKey (.ofStrings ["third"])

def begun : Logbook where
  writer := { index := some [("third", ())] }
  store := listing
  read := some true

/-- An agent is put and listed, and the removal of another one is refused. -/
def obstructed : List Shift :=
  [.submit (.putAgent elder), .work [], .work [], .submit (.removeAgent "ghost"),
    .work [(.delete, "blackboard:agents/")]]

/-- The list of names is refused behind the first put of an agent, and nothing is refused at the second. -/
def unlisted : List Shift :=
  [.work [], .submit (.putAgent elder), .work [], .work [(.set, "blackboard:index/")], .submit (.putAgent elder),
    .work []]

/-- The list of names cannot be read, and is written behind the put of another agent. -/
def unreadable : List Shift := [.work [(.get, "blackboard:index/")], .submit (.putAgent elder), .work [], .work []]

theorem listing_lists : ({} : Blackboard).Lists listing "third" := Blackboard.written_lists (.head _)

theorem begun_eq (shifts : List Shift) :
    (Logbook.opened {} listing).run (.work [] :: shifts) = begun.run shifts := by
  have read : ({} : Blackboard).getJson (Decode.list Decode.text) listing Blackboard.indexKey = .ok (some ["third"]) :=
    Blackboard.written_shows (s := {}) rfl Blackboard.indexKey (Decode.ofText_strings ["third"])
  have first : (Logbook.opened {} listing).act (.work []) = begun := by
    have same : listing.refusing [] = listing := rfl
    simp only [Logbook.act, Logbook.opened, same, Logbook.work, Logbook.note, BoardWriter.step, BoardWriter.reads,
      BoardWriter.readIndex, read]
    rfl
  rw [← first]
  rfl

end Sample

namespace Logbook
open Blackboard

theorem names_stay_listed_when_obstructed :
    ({} : Blackboard).Lists ((opened {} Sample.listing).run (.work [] :: Sample.obstructed)).store "elder" ∧
      ({} : Blackboard).Lists ((opened {} Sample.listing).run (.work [] :: Sample.obstructed)).store "third" := by
  obtain ⟨put, first⟩ := names_stay_listed {} Sample.listing (.work [] :: Sample.obstructed)
  rw [Sample.begun_eq] at put first ⊢
  have dealt : (Sample.begun.run Sample.obstructed).dealt =
      [⟨.removeAgent "ghost", false, none⟩, ⟨.putAgent Sample.elder, true, some true⟩] := rfl
  have read : (Sample.begun.run Sample.obstructed).read = some true := rfl
  constructor
  · have puts : (Sample.begun.run Sample.obstructed).Puts Sample.elder
        [⟨.removeAgent "ghost", false, none⟩] ⟨.putAgent Sample.elder, true, some true⟩ [] := by
      refine ⟨dealt, rfl, rfl, by decide, by simp, ?_⟩
      intro x there
      rw [List.mem_singleton.mp there]
      simp [Sample.elder, Registration.new]
    exact put _ _ _ _ puts (by decide)
  · refine first "third" Sample.listing_lists (by rw [read]; decide) ?_
    rw [dealt]
    simp

/-- The last put of an agent was done as asked, after its list had been refused, and its name is not listed; a name
that was listed when the writer came, and could not read the list, is gone from it. No name was removed. -/
theorem refusals_unlist_names :
    (((opened {} {}).run Sample.unlisted).Puts Sample.elder [] ⟨.putAgent Sample.elder, true, none⟩
        [⟨.putAgent Sample.elder, true, some false⟩] ∧
      ¬ ({} : Blackboard).Lists ((opened {} {}).run Sample.unlisted).store "elder") ∧
    ({} : Blackboard).Lists Sample.listing "third" ∧
      (∀ d ∈ ((opened {} Sample.listing).run Sample.unreadable).dealt, d.write ≠ .removeAgent "third") ∧
      ¬ ({} : Blackboard).Lists ((opened {} Sample.listing).run Sample.unreadable).store "third" := by
  have calls : ∀ s : Store, (s.refusing []).Open := fun _ => rfl
  refine ⟨⟨?_, ?_⟩, Sample.listing_lists, ?_, ?_⟩
  · have dealt : ((opened {} {}).run Sample.unlisted).dealt =
        [⟨.putAgent Sample.elder, true, none⟩, ⟨.putAgent Sample.elder, true, some false⟩] := rfl
    have calm : ((opened {} {}).run Sample.unlisted).writer.indexDue = false := rfl
    exact ⟨dealt, rfl, rfl, by decide, fun _ => calm, by simp⟩
  · rintro ⟨names, shown, _⟩
    have missing : (((opened {} {}).run Sample.unlisted).store.refusing []).entries.get?
        (({} : Blackboard).fullKey indexKey) = none := rfl
    rw [Shows, getJson_open (calls _), missing] at shown
    simp at shown
  · have dealt : ((opened {} Sample.listing).run Sample.unreadable).dealt =
        [⟨.putAgent Sample.elder, true, some true⟩] := rfl
    rw [dealt]
    simp
  · rintro ⟨names, shown, there⟩
    have text : (((opened {} Sample.listing).run Sample.unreadable).store.refusing []).entries.get?
        (({} : Blackboard).fullKey indexKey) = some (Json.ofStrings ["elder"]).render := rfl
    rw [Shows, getJson_open (calls _), text] at shown
    simp only [Decode.ofText_strings, Except.ok.injEq, Option.some.injEq] at shown
    rw [← shown] at there
    simp at there

end Logbook
end Handover
