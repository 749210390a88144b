import Handover.Proofs.Blackboard
import Handover.Proofs.Swap.Edits
import Handover.Proofs.Table

/-!
# What the board shows while changes are brought to it

A writer brings one change after another to the board, and the list of names behind the agent that it is about.
If the changes hand something on from agent to agent, then at every moment the board lists an agent that has it:
`steps_carry`.
-/

namespace Handover

/-- What is written for the registration reads back as it. -/
def Registration.ReadsBack (a : Registration) : Prop := Decode.ofText Registration.decode a.encode.render = .ok a

namespace BoardWrite

/-- Changes that hand something on: of those about the agent that has it the ones put an agent of this kind, which
has it from then on, and there are no others. -/
inductive Trail (P : Registration → Prop) : String → List BoardWrite → String → Prop where
  | done : Trail P name [] name
  | spared (other : x.about? ≠ some name) (trail : Trail P name rest last) : Trail P name (x :: rest) last
  | put (has : P a) (trail : Trail P a.name rest last) : Trail P name (.putAgent a :: rest) last

end BoardWrite

namespace BoardWriter
open BoardWrite
variable {w w' : BoardWriter} {s s' : Store} {x : BoardWrite} {index : Table Unit} {a : Registration} {name : String}

/-- The names in the writer's hands, or those that it is going to read. -/
def known (w : BoardWriter) (s : Store) : Table Unit := w.index.getD (w.readIndex s)

/-- What comes of one change to the board. -/
structure Applied (w : BoardWriter) (index : Table Unit) (s : Store) (x : BoardWrite) (w' : BoardWriter) (s' : Store) :
    Prop where
  board : w'.board = w.board
  queue : w'.queue = w.queue
  opened : s'.Open
  index : ∃ index', w'.index = some index' ∧ (w'.indexDue = false → index' = index) ∧
    (∀ name, x.about? ≠ some name → index'.contains name = index.contains name) ∧
    ∀ a, x = .putAgent a → index'.contains a.name = true
  list : ∀ names, w.board.Shows s' (Decode.list Decode.text) Blackboard.indexKey names ↔
    w.board.Shows s (Decode.list Decode.text) Blackboard.indexKey names
  others : ∀ name a, x.about? ≠ some name →
    (w.board.Shows s' Registration.decode (Blackboard.agentKey name) a ↔
      w.board.Shows s Registration.decode (Blackboard.agentKey name) a)
  own : ∀ a, x = .putAgent a → a.ReadsBack → w.board.Shows s' Registration.decode (Blackboard.agentKey a.name) a
  gone : ∀ name a, x = .removeAgent name → ¬ w.board.Shows s' Registration.decode (Blackboard.agentKey name) a

theorem put_applied (opened : s.Open) (kept : w.index = some index) (a : Registration) :
    Applied w index s (.putAgent a) (w.apply index s (.putAgent a)).1 (w.apply index s (.putAgent a)).2 := by
  have list := Blackboard.written_elsewhere (b := w.board) opened (Decode.list Decode.text) a.encode
    (Blackboard.agentKey_ne_indexKey a.name)
  have others : ∀ name, (BoardWrite.putAgent a).about? ≠ some name → name ≠ a.name :=
    fun name about same => about (congrArg some same.symm)
  have elsewhere := fun name b about => Blackboard.written_elsewhere (b := w.board) opened Registration.decode a.encode
    (Blackboard.agentKey_ne (others name about)) b
  simp only [apply, Blackboard.setJson_open opened]
  split
  · rename_i listed
    refine ⟨rfl, rfl, opened, ⟨index, kept, fun _ => rfl, fun _ _ => rfl, ?_⟩, list, elsewhere, ?_,
      (fun _ _ same => nomatch same)⟩
    · rintro _ ⟨⟩
      exact listed
    · rintro _ ⟨⟩ reads
      exact Blackboard.written_shows opened _ reads
  · refine ⟨rfl, rfl, opened, ⟨_, rfl, (fun due => Bool.noConfusion due), ?_, ?_⟩, list, elsewhere, ?_,
      (fun _ _ same => nomatch same)⟩
    · intro name about
      simp [Table.contains_insert, others name about]
    · rintro _ ⟨⟩
      simp [Table.contains_insert]
    · rintro _ ⟨⟩ reads
      exact Blackboard.written_shows opened _ reads

theorem remove_applied (opened : s.Open) (kept : w.index = some index) (gone : String) :
    Applied w index s (.removeAgent gone) (w.apply index s (.removeAgent gone)).1
      (w.apply index s (.removeAgent gone)).2 := by
  have list := Blackboard.cleared_elsewhere (b := w.board) opened (Decode.list Decode.text)
    (Blackboard.agentKey_ne_indexKey gone)
  have others : ∀ name, (BoardWrite.removeAgent gone).about? ≠ some name → name ≠ gone :=
    fun name about same => about (congrArg some same.symm)
  have elsewhere := fun name b about => Blackboard.cleared_elsewhere (b := w.board) opened Registration.decode
    (Blackboard.agentKey_ne (others name about)) b
  have cleared : ∀ name b, BoardWrite.removeAgent gone = .removeAgent name →
      ¬ w.board.Shows (w.board.cleared s (Blackboard.agentKey gone)) Registration.decode
        (Blackboard.agentKey name) b := by
    rintro _ b ⟨⟩
    exact Blackboard.cleared_shows opened _ _ b
  simp only [apply, Blackboard.delete_open opened, orSame]
  split
  · refine ⟨rfl, rfl, opened, ⟨_, rfl, (fun due => Bool.noConfusion due), ?_, (fun _ same => nomatch same)⟩,
      list, elsewhere, (fun _ same => nomatch same), cleared⟩
    intro name about
    exact Table.contains_erase_other (others name about)
  · exact ⟨rfl, rfl, opened, ⟨index, kept, fun _ => rfl, fun _ _ => rfl, (fun _ same => nomatch same)⟩,
      list, elsewhere, (fun _ same => nomatch same), cleared⟩

theorem session_applied (opened : s.Open) (kept : w.index = some index) (session : Session) :
    Applied w index s (.putSession session) (w.apply index s (.putSession session)).1
      (w.apply index s (.putSession session)).2 := by
  simp only [apply, Blackboard.setJson_open opened, orSame]
  exact ⟨rfl, rfl, opened, ⟨index, kept, fun _ => rfl, fun _ _ => rfl, (fun _ same => nomatch same)⟩,
    Blackboard.written_elsewhere opened _ _ (Blackboard.swapKey_ne_indexKey _),
    fun name b _ => Blackboard.written_elsewhere opened _ _ (Blackboard.swapKey_ne_agentKey _ name) b,
    (fun _ same => nomatch same), (fun _ _ same => nomatch same)⟩

theorem mark_applied (opened : s.Open) (kept : w.index = some index) (ticket : Nat) :
    Applied w index s (.mark ticket) (w.apply index s (.mark ticket)).1 (w.apply index s (.mark ticket)).2 :=
  ⟨rfl, rfl, opened, ⟨index, kept, fun _ => rfl, fun _ _ => rfl, (fun _ same => nomatch same)⟩, fun _ => Iff.rfl,
    fun _ _ _ => Iff.rfl, (fun _ same => nomatch same), (fun _ _ same => nomatch same)⟩

theorem apply_applied (opened : s.Open) (kept : w.index = some index) (x : BoardWrite) :
    Applied w index s x (w.apply index s x).1 (w.apply index s x).2 := by
  cases x with
  | putAgent a => exact put_applied opened kept a
  | removeAgent gone => exact remove_applied opened kept gone
  | putSession session => exact session_applied opened kept session
  | mark ticket => exact mark_applied opened kept ticket

/-- The store refuses nothing and holds what this writer brought to it. -/
structure Rules (w : BoardWriter) (s : Store) : Prop where
  opened : s.Open
  /-- Agents that can be read stand under their own names. -/
  tidy : ∀ name a, w.board.Shows s Registration.decode (Blackboard.agentKey name) a → a.name = name ∧ name ≠ ""
  unread : w.index = none → w.indexDue = false
  /-- The list of names is the writer's, unless the writer is about to write it. -/
  listed : ∃ names, w.board.Shows s (Decode.list Decode.text) Blackboard.indexKey names ∧
    (w.indexDue = false → ∀ name, name ∈ names ↔ (w.known s).contains name = true)

/-- The board lists an agent of this kind, and shows it under that name. -/
def Offers (w : BoardWriter) (s : Store) (P : Registration → Prop) : Prop :=
  ∃ names name a, w.board.Shows s (Decode.list Decode.text) Blackboard.indexKey names ∧ name ∈ names ∧
    w.board.Shows s Registration.decode (Blackboard.agentKey name) a ∧ P a

/-- The board offers an agent of the kind, and this one is such an agent and in the writer's list. -/
structure Carries (P : Registration → Prop) (w : BoardWriter) (s : Store) (name : String) : Prop where
  rules : w.Rules s
  offers : w.Offers s P
  known : (w.known s).contains name = true
  shown : ∃ a, w.board.Shows s Registration.decode (Blackboard.agentKey name) a ∧ P a

variable {P : Registration → Prop} {last : String}

theorem read_carries (carries : Carries P w s name) (unread : w.index = none) :
    Carries P { w with index := some (w.readIndex s) } s name := by
  have same : ({ w with index := some (w.readIndex s) } : BoardWriter).known s = w.known s := by
    simp [known, unread]
  obtain ⟨names, shown, listed⟩ := carries.rules.listed
  refine ⟨⟨carries.rules.opened, carries.rules.tidy, nofun, names, shown, ?_⟩, carries.offers, ?_, carries.shown⟩
  · rw [same]
    exact listed
  · rw [same]
    exact carries.known

theorem due_carries (carries : Carries P w s name) (kept : w.index = some index) :
    Carries P { w with indexDue := false }
      (w.board.written s Blackboard.indexKey (.ofStrings index.names)) name := by
  have opened := carries.rules.opened
  have elsewhere := fun n => Blackboard.written_elsewhere (b := w.board) opened Registration.decode
    (.ofStrings index.names) (Blackboard.agentKey_ne_indexKey n).symm
  have listed := Blackboard.written_shows (b := w.board) opened Blackboard.indexKey
    (Decode.ofText_strings index.names)
  have known := carries.known
  simp only [BoardWriter.known, kept, Option.getD_some] at known
  obtain ⟨a, there, has⟩ := carries.shown
  have shown := (elsewhere name a).mpr there
  refine ⟨⟨Blackboard.written_open opened _ _, ?_, fun _ => rfl, index.names, listed, ?_⟩, ?_, ?_, a, shown, has⟩
  · intro n b there
    exact carries.rules.tidy n b ((elsewhere n b).mp there)
  · intro _ n
    simp only [BoardWriter.known, kept, Option.getD_some]
    exact Table.contains_iff_mem.symm
  · exact ⟨index.names, name, a, listed, Table.contains_iff_mem.mp known, shown, has⟩
  · simpa only [BoardWriter.known, kept, Option.getD_some] using known

theorem applied_rules (rules : w.Rules s) (kept : w.index = some index) (calm : w.indexDue = false)
    (fit : ∀ a, x = .putAgent a → a.ReadsBack ∧ a.name ≠ "") (applied : Applied w index s x w' s') : w'.Rules s' := by
  obtain ⟨index', kept', same, _, _⟩ := applied.index
  refine ⟨applied.opened, ?_, ?_, ?_⟩
  · intro name a there
    rw [applied.board] at there
    by_cases about : x.about? = some name
    · cases x with
      | putAgent b =>
        obtain rfl : b.name = name := Option.some.inj about
        obtain ⟨reads, named⟩ := fit b rfl
        have own := applied.own b rfl reads
        obtain rfl := Blackboard.shows_unique there own
        exact ⟨rfl, named⟩
      | removeAgent gone =>
        obtain rfl : gone = name := Option.some.inj about
        exact (applied.gone gone a rfl there).elim
      | putSession | mark => cases about
    · exact rules.tidy name a ((applied.others name a about).mp there)
  · intro unread
    rw [kept'] at unread
    cases unread
  · obtain ⟨names, shown, listed⟩ := rules.listed
    refine ⟨names, ?_, ?_⟩
    · rw [applied.board]
      exact (applied.list names).mpr shown
    · intro calm'
      have before := listed calm
      simp only [known, kept, Option.getD_some] at before
      simp only [known, kept', Option.getD_some, same calm']
      exact before

theorem applied_carries (carries : Carries P w s name) (kept : w.index = some index) (calm : w.indexDue = false)
    (trail : Trail P name (x :: rest) last) (fit : ∀ a, x = .putAgent a → a.ReadsBack ∧ a.name ≠ "")
    (applied : Applied w index s x w' s') : ∃ next, Carries P w' s' next ∧ Trail P next rest last := by
  have rules := applied_rules carries.rules kept calm fit applied
  obtain ⟨index', kept', _, elsewhere, put⟩ := applied.index
  have known : index.contains name = true := by
    simpa only [BoardWriter.known, kept, Option.getD_some] using carries.known
  obtain ⟨names, shown, listed⟩ := carries.rules.listed
  have inside : name ∈ names := (listed calm name).mpr carries.known
  have still : w'.board.Shows s' (Decode.list Decode.text) Blackboard.indexKey names := by
    rw [applied.board]
    exact (applied.list names).mpr shown
  obtain ⟨a, there, has⟩ := carries.shown
  have untouched : x.about? ≠ some name →
      w'.board.Shows s' Registration.decode (Blackboard.agentKey name) a := by
    intro other
    rw [applied.board]
    exact (applied.others name a other).mpr there
  cases trail with
  | spared other trail =>
    have shown := untouched other
    refine ⟨name, ⟨rules, ⟨names, name, a, still, inside, shown, has⟩, ?_, a, shown, has⟩, trail⟩
    simp only [BoardWriter.known, kept', Option.getD_some]
    exact (elsewhere name other).trans known
  | put hasOther trail =>
    rename_i b
    have own : w'.board.Shows s' Registration.decode (Blackboard.agentKey b.name) b := by
      rw [applied.board]
      exact applied.own b rfl (fit b rfl).1
    -- The list may not have the name of this agent yet; then the one before it is still offered.
    have offers : w'.Offers s' P := by
      by_cases same : b.name = name
      · exact ⟨names, b.name, b, still, same ▸ inside, own, hasOther⟩
      · exact ⟨names, name, a, still, inside, untouched fun about => same (Option.some.inj about), has⟩
    refine ⟨b.name, ⟨rules, offers, ?_, b, own, hasOther⟩, trail⟩
    simp only [BoardWriter.known, kept', Option.getD_some]
    exact put b rfl

/-- One step of the writer: it reads the list of names, or writes it, or brings the next change to the board. -/
theorem step_carries (carries : Carries P w s name) (trail : Trail P name w.queue last)
    (fit : ∀ a, .putAgent a ∈ w.queue → a.ReadsBack ∧ a.name ≠ "") (stepped : w.step s = some (w', s')) :
    w'.board = w.board ∧ (∀ x ∈ w'.queue, x ∈ w.queue) ∧
      ∃ next, Carries P w' s' next ∧ Trail P next w'.queue last := by
  unfold step at stepped
  split at stepped
  · rename_i unread
    cases stepped
    exact ⟨rfl, fun _ there => there, name, read_carries carries unread, trail⟩
  · rename_i index kept
    split at stepped
    · rename_i due
      rw [Blackboard.setJson_open carries.rules.opened] at stepped
      cases stepped
      exact ⟨rfl, fun _ there => there, name, due_carries carries kept, trail⟩
    · rename_i notDue
      have calm : w.indexDue = false := by simpa using notDue
      split at stepped
      · cases stepped
      · rename_i x rest queued
        rw [queued] at trail fit
        have rules := carries.rules
        have ready : Carries P { w with queue := rest } s name :=
          ⟨⟨rules.opened, rules.tidy, rules.unread, rules.listed⟩, carries.offers, carries.known, carries.shown⟩
        have kept' : ({ w with queue := rest } : BoardWriter).index = some index := kept
        have applied := apply_applied rules.opened kept' x
        rw [Option.some.inj stepped] at applied
        refine ⟨applied.board, ?_, ?_⟩
        · rw [applied.queue, queued]
          exact fun _ there => .tail _ there
        · rw [applied.queue]
          exact applied_carries ready kept calm trail (fun a same => fit a (same ▸ .head _)) applied

/-- However many steps the writer has done, the board lists and shows an agent of the kind. -/
theorem steps_carry (carries : Carries P w s name) (trail : Trail P name w.queue last)
    (fit : ∀ a, .putAgent a ∈ w.queue → a.ReadsBack ∧ a.name ≠ "") (many : Nat) :
    (steps many w s).1.Rules (steps many w s).2 ∧ (steps many w s).1.Offers (steps many w s).2 P ∧
      (steps many w s).1.board = w.board := by
  induction many generalizing w s name with
  | zero => exact ⟨carries.rules, carries.offers, rfl⟩
  | succ many ih =>
    unfold steps
    split
    · exact ⟨carries.rules, carries.offers, rfl⟩
    · rename_i w' s' stepped
      obtain ⟨board, fewer, next, carried, onward⟩ := step_carries carries trail fit stepped
      rw [← board]
      exact ih carried onward fun a there => fit a (fewer _ there)

/-- The store holds the registration of the agent and its name in the list, and what is still to be brought to it is
about other agents. -/
structure UpToDate (w : BoardWriter) (s : Store) (pending : List BoardWrite) (a : Registration) : Prop where
  rules : w.Rules s
  shown : w.board.Shows s Registration.decode (Blackboard.agentKey a.name) a
  listed : ∃ names, w.board.Shows s (Decode.list Decode.text) Blackboard.indexKey names ∧ a.name ∈ names
  known : (w.known s).contains a.name = true
  spared : ∀ x ∈ w.queue ++ pending, x.about? ≠ some a.name
  given : ∀ b, .putAgent b ∈ w.queue ++ pending → b.name ≠ ""

theorem readIndex_contains {names : List String}
    (shown : w.board.Shows s (Decode.list Decode.text) Blackboard.indexKey names) :
    (w.readIndex s).contains name = true ↔ name ∈ names := by
  have read : w.board.getJson (Decode.list Decode.text) s Blackboard.indexKey = .ok (some names) := shown
  simp only [readIndex, read]
  exact Table.contains_ofList names

/-- A store with one agent on a board is up to date for a writer that is new to the board. -/
theorem first_upToDate (board : Blackboard) (reads : a.ReadsBack) (named : a.name ≠ "") :
    UpToDate { board } (board.written (board.written {} (Blackboard.agentKey a.name) a.encode) Blackboard.indexKey
      (.ofStrings [a.name])) [] a := by
  have opened : ({} : Store).Open := rfl
  have opened' := Blackboard.written_open (b := board) opened (Blackboard.agentKey a.name) a.encode
  have agent := Blackboard.written_shows (b := board) opened (Blackboard.agentKey a.name) reads
  have list := Blackboard.written_shows (b := board) opened' Blackboard.indexKey (Decode.ofText_strings [a.name])
  have behind := fun name b => Blackboard.written_elsewhere (b := board) opened' Registration.decode
    (.ofStrings [a.name]) (Blackboard.agentKey_ne_indexKey name).symm b
  have shown := (behind a.name a).mpr agent
  have contains : ∀ name, (({ board } : BoardWriter).readIndex _).contains name = true ↔ name ∈ [a.name] :=
    fun _ => readIndex_contains list
  refine ⟨⟨opened, ?_, fun _ => rfl, [a.name], list, fun _ name => (contains name).symm⟩, shown,
    ⟨[a.name], list, .head _⟩, (contains a.name).mpr (.head _), (fun _ there => nomatch there),
    (fun _ there => nomatch there)⟩
  intro name b there
  by_cases same : name = a.name
  · subst same
    obtain rfl := Blackboard.shows_unique shown there
    exact ⟨rfl, named⟩
  · have before := (behind name b).mp there
    rw [Blackboard.written_elsewhere opened Registration.decode a.encode (Blackboard.agentKey_ne same) b] at before
    rw [Blackboard.Shows, Blackboard.getJson_open opened] at before
    cases before

end BoardWriter
end Handover
