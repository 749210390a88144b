import Mathlib.Data.Nat.Find
import Handover.Proofs.Bureau

/-!
# The board as the image of the registry

At every moment of a run the board has the agents as they were at some moment before, and later it never goes back to
an earlier one. Once the writer has done all, the board has what the coordinator has: `board_is_image`.
-/

namespace Handover
namespace Bureau
open BoardWrite
variable {b : Bureau} {deeds : List Deed} {board : Blackboard} {m n : Nat}

/-- The bureau after so many of the deeds. -/
def moment (b : Bureau) (deeds : List Deed) (n : Nat) : Bureau := b.after (deeds.take n)

/-- The writer has done all, and the board has the agents, the last record of each swap that has started, and nothing
else. -/
structure Pictured (b : Bureau) (board : Blackboard) : Prop where
  done : b.writer.queue = []
  agents : board.Depicts b.store b.agents
  records : board.Records b.store (recordsAfter b.log)
  onFile : b.crowd.OnFile (recordsAfter b.log)
  owns : board.Owns b.store
  sorted : b.agents.names.Pairwise (· < ·)
  listed : board.ListsNames b.store b.agents.names ∨ board.holds b.store Blackboard.indexKey = none

theorem moment_mirrors (mirrors : b.Mirrors) (deeds : List Deed) (n : Nat) : (b.moment deeds n).Mirrors :=
  after_mirrors mirrors _

theorem moment_follows (mirrors : b.Mirrors) (deeds : List Deed) (n : Nat) :
    Follows (b.moment deeds n) (b.moment deeds (n + 1)) := by
  rw [moment, moment, after, after, List.take_add_one, List.foldl_append]
  cases deeds[n]? with
  | none => exact follows_refl _
  | some d => exact (act_mirrors (moment_mirrors mirrors deeds n) d).2

theorem moment_board (mirrors : b.Mirrors) (deeds : List Deed) (n : Nat) :
    (b.moment deeds n).writer.board = b.writer.board := after_board mirrors _

theorem moment_log (mirrors : b.Mirrors) (deeds : List Deed) (upTo : m ≤ n) :
    (b.moment deeds m).log <+: (b.moment deeds n).log := by
  induction upTo with
  | refl => exact List.prefix_refl _
  | step _ ih =>
    obtain ⟨more, log, _⟩ := (moment_follows mirrors deeds _).log
    rw [log]
    exact ih.trans (List.prefix_append _ _)

theorem moment_written (mirrors : b.Mirrors) (deeds : List Deed) (upTo : m ≤ n) :
    (b.moment deeds m).written ≤ (b.moment deeds n).written := by
  induction upTo with
  | refl => exact Nat.le_refl _
  | step _ ih => exact Nat.le_trans ih (moment_follows mirrors deeds _).written

theorem written_le (b : Bureau) : b.written ≤ b.log.length := Nat.sub_le _ _

/-- To each moment there is one before at which the writer had been handed what it has done by now. -/
theorem exists_shown (mirrors : b.Mirrors) (fresh : b.log = []) (deeds : List Deed) :
    ∃ shown : Nat → Nat, (∀ n, shown n ≤ n) ∧ (∀ m n, m ≤ n → shown m ≤ shown n) ∧
      ∀ n, (b.moment deeds (shown n)).log.length = (b.moment deeds n).written := by
  have reached : ∀ n, ∃ k, (b.moment deeds n).written ≤ (b.moment deeds k).log.length :=
    fun n => ⟨n, written_le _⟩
  -- The first moment at which the log is long enough. One deed before, it is too short by one.
  refine ⟨fun n => Nat.find (reached n), fun n => Nat.find_min' _ (written_le _), fun m n upTo => ?_, fun n => ?_⟩
  · exact Nat.find_min' _ (Nat.le_trans (moment_written mirrors deeds upTo) (Nat.find_spec (reached n)))
  · have enough := Nat.find_spec (reached n)
    have first : ∀ k < Nat.find (reached n), ¬ _ := fun k => Nat.find_min (reached n)
    dsimp only
    generalize Nat.find (reached n) = k at enough first
    cases k with
    | zero =>
      have none : (b.moment deeds 0).log = [] := fresh
      rw [none] at enough ⊢
      exact (Nat.le_zero.mp enough).symm
    | succ k =>
      have short := first k (Nat.lt_succ_self k)
      obtain ⟨more, log, one⟩ := (moment_follows mirrors deeds k).log
      rw [log, List.length_append] at enough ⊢
      omega

theorem shown_agents (mirrors : b.Mirrors) (deeds : List Deed) (upTo : m ≤ n)
    (same : (b.moment deeds m).log.length = (b.moment deeds n).written) :
    b.writer.board.Depicts (b.moment deeds n).store (b.moment deeds m).agents := by
  obtain ⟨done, log, brought⟩ := (moment_mirrors mirrors deeds n).brings
  have length : done.length = (b.moment deeds n).written := by simp [written, log]
  have earlier : done = (b.moment deeds m).log := by
    have both := moment_log mirrors deeds upTo
    rw [log] at both
    exact (List.prefix_of_prefix_length_le both (List.prefix_append _ _) (by omega)).eq_of_length (by omega) |>.symm
  have depicts := brought.agents
  rwa [earlier, ← (moment_mirrors mirrors deeds m).agents, moment_board mirrors] at depicts

theorem flush_pictured (mirrors : b.Mirrors) :
    b.flush.Pictured b.writer.board ∧
      (b.writer.board.holds b.flush.store Blackboard.indexKey = none → ∀ a, .putAgent a ∉ b.log) := by
  obtain ⟨board, brought, queue, calm⟩ := BoardWriter.catchUp_brings mirrors.brings
  have agents : b.flush.agents = agentsAfter b.log := mirrors.agents
  have depicts := brought.agents
  have records := brought.records
  have owns := brought.owns
  have listed := brought.listed calm
  rw [board] at depicts records owns listed
  rw [← agents] at depicts listed
  refine ⟨⟨queue, depicts, records, mirrors.onFile, owns, ?_, ?_⟩, fun missing => ?_⟩
  · rw [agents]
    exact agentsAfter_ordered b.log
  · exact listed.imp_right And.left
  · rcases listed with listed | ⟨_, unput⟩
    · exact nomatch listed.symm.trans missing
    · exact unput

/-- On a store of its own the board shows the agents as they were at a moment that only goes forward, and all there is
once the writer has done everything. It has no list of names only if there never was an agent. -/
theorem board_is_image (orders : List Order) (config : Config) (board : Blackboard) (deeds : List Deed) :
    ∃ shown : Nat → Nat, (∀ n, shown n ≤ n) ∧ (∀ m n, m ≤ n → shown m ≤ shown n) ∧ ∀ n,
      board.Depicts ((opened orders config board).moment deeds n).store
        ((opened orders config board).moment deeds (shown n)).agents ∧
      ((opened orders config board).moment deeds n).flush.Pictured board ∧
      (board.holds ((opened orders config board).moment deeds n).flush.store Blackboard.indexKey = none →
        ∀ m ≤ n, ((opened orders config board).moment deeds m).agents = []) := by
  have mirrors := opened_mirrors orders config board
  obtain ⟨shown, upTo, onward, same⟩ := exists_shown mirrors rfl deeds
  refine ⟨shown, upTo, onward, fun n => ?_⟩
  obtain ⟨pictured, unput⟩ := flush_pictured (moment_mirrors mirrors deeds n)
  rw [moment_board mirrors] at pictured unput
  refine ⟨shown_agents mirrors deeds (upTo n) (same n), pictured, fun missing m earlier => ?_⟩
  obtain ⟨more, log⟩ := moment_log mirrors deeds earlier
  rw [(moment_mirrors mirrors deeds m).agents]
  refine agentsAfter_unput fun a there => unput missing a ?_
  rw [← log]
  exact List.mem_append_left _ there

end Bureau
end Handover
