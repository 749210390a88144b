import Handover.Coordinator
import Handover.Proofs.Registry
import Handover.Proofs.Writer

/-!
# What a fresh coordinator finds on the board

Recovery goes through the list of names and enters every agent that the board shows. It fails on an agent without a
name only, and a board that one writer keeps has none.
-/

namespace Handover
namespace Coordinator

/-- What the coordinator has it has from the board. -/
def Faithful (b : Blackboard) (s : Store) (c : Coordinator) : Prop :=
  ∀ name a, c.registry.agents.get? name = some a → b.Shows s Registration.decode (Blackboard.agentKey name) a

variable {b : Blackboard} {s : Store} {c : Coordinator} {w : BoardWriter} {P : Registration → Prop}
  {name : String} {a : Registration}

theorem entered_faithful (faithful : Faithful b s c) (own : a.name = name)
    (shown : b.Shows s Registration.decode (Blackboard.agentKey name) a) :
    Faithful b s { c with registry := c.registry.store a } := by
  intro other a' found
  rw [Registry.store_agents, Table.get?_insert, own] at found
  split at found
  · rename_i same
    cases found
    exact same ▸ shown
  · exact faithful other a' found

/-- Every agent that the board shows is entered if its name is on the list, or was entered before. -/
def Finds (b : Blackboard) (s : Store) (names : List String) (c c' : Coordinator) : Prop :=
  ∀ name a, b.Shows s Registration.decode (Blackboard.agentKey name) a →
    name ∈ names ∨ c.registry.contains name = true → c'.registry.agents.get? name = some a

theorem finds_cons {n : String} {names : List String} {c₁ c' : Coordinator} (finds : Finds b s names c₁ c')
    (kept : ∀ name, c.registry.contains name = true → c₁.registry.contains name = true)
    (entered : ∀ a, b.Shows s Registration.decode (Blackboard.agentKey n) a → c₁.registry.contains n = true) :
    Finds b s (n :: names) c c' := by
  intro name a shown there
  apply finds name a shown
  rcases there with listed | had
  · rcases List.mem_cons.mp listed with rfl | later
    · exact .inr (entered a shown)
    · exact .inl later
  · exact .inr (kept name had)

theorem recoverNames_finds
    (tidy : ∀ name a, b.Shows s Registration.decode (Blackboard.agentKey name) a → a.name = name ∧ name ≠ "")
    (faithful : Faithful b s c) (names : List String) (count : Nat) :
    ∃ many c', recoverNames b s names count c = (.ok many, c') ∧ Finds b s names c c' := by
  induction names generalizing count c with
  | nil =>
    refine ⟨count, c, rfl, fun name a shown there => ?_⟩
    obtain ⟨a', found⟩ : ∃ a', c.registry.agents.get? name = some a' := by
      simpa [Registry.contains, Table.contains, Option.isSome_iff_exists] using there
    rw [found, Blackboard.shows_unique shown (faithful name a' found)]
  | cons n rest ih =>
    unfold recoverNames
    split
    · rename_i had
      obtain ⟨many, c', ends, finds⟩ := ih faithful count
      exact ⟨many, c', ends, finds_cons finds (fun _ kept => kept) fun _ _ => had⟩
    · split
      · rename_i a shown
        obtain ⟨own, named⟩ := tidy n a shown
        rw [Registry.restore_eq _ _ (own ▸ named)]
        obtain ⟨many, c', ends, finds⟩ := ih (entered_faithful faithful own shown) (count + 1)
        have contains : ∀ name,
            (c.registry.store a).contains name = (decide (name = n) || c.registry.contains name) := by
          intro name
          rw [Registry.contains, Registry.store_agents, Table.contains_insert, own]
          rfl
        refine ⟨many, c', ends, finds_cons finds (fun name kept => ?_) fun _ _ => ?_⟩
        · simp [contains, kept]
        · simp [contains]
      all_goals
        rename_i unshown
        obtain ⟨many, c', ends, finds⟩ := ih faithful count
        refine ⟨many, c', ends, finds_cons finds (fun _ kept => kept) fun a shown => ?_⟩
        rw [Blackboard.Shows, unshown] at shown
        cases shown

/-- A fresh coordinator recovers an agent of the kind that the board offers. -/
theorem recover_finds (rules : w.Rules s) (offers : w.Offers s P) (board : c.board = some w.board)
    (fresh : c.registry.agents = []) :
    ∃ many c', c.recover s = (.ok many, c') ∧ ∃ a, c'.registry.agents.get? a.name = some a ∧ P a := by
  obtain ⟨names, name, a, listed, inside, shown, has⟩ := offers
  have faithful : Faithful w.board s c := by
    intro name a found
    rw [fresh] at found
    cases found
  obtain ⟨many, c', ends, finds⟩ := recoverNames_finds rules.tidy faithful names 0
  refine ⟨many, c', ?_, a, ?_, has⟩
  · have read : w.board.getJson (Decode.list Decode.text) s Blackboard.indexKey = .ok (some names) := listed
    simp only [recover, board, read]
    exact ends
  · rw [(rules.tidy name a shown).1]
    exact finds name a shown (.inl inside)

end Coordinator
end Handover
