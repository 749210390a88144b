import Handover.Proofs.Context

/-!
# What cancellations reach

A cancellation reaches the tokens below the one that is cancelled and no others. However tokens are made and cancelled,
the cancelled ones are just those below one of the tokens that somebody cancelled: `Traced`.
-/

namespace Handover
namespace Tokens
variable {ts ts' : Tokens} {id above parent index place : Nat} {reached : List TokenId} {list : List Token}
  {t u : Token} {marked : TokenId → Prop}

theorem Below.le (below : ts.Below above id) : above ≤ id := by
  induction below with
  | self => exact Nat.le_refl above
  | child _ _ later _ ih => exact Nat.le_trans ih (Nat.le_of_lt later)

/-- A token below another one is that one itself, or made below a token that is. -/
theorem Below.same_or_parent (below : ts.Below above id) :
    id = above ∨ ∃ t p, ts.list[id]? = some t ∧ t.parent = some p ∧ ts.Below above p := by
  cases below with
  | self => exact .inl rfl
  | child there under _ below => exact .inr ⟨_, _, there, under, below⟩

theorem marks_below (here : ts.list[index]? = some u) (passed : ∀ id ∈ reached, id < index ∧ ts.Below above id)
    (hit : marks above index reached u = true) : ts.Below above index := by
  rw [marks, Bool.or_eq_true, decide_eq_true_eq] at hit
  rcases hit with rfl | under
  · exact .self
  · split at under
    · rename_i p parent
      obtain ⟨later, below⟩ := passed p (List.contains_iff_mem.mp under)
      exact .child here parent later below
    · cases under

/-- A token that is cancelled after a cancellation was so before, or is below the one of which that was. -/
theorem cancelFrom_cancelled (tail : ts.list.drop index = list)
    (passed : ∀ id ∈ reached, id < index ∧ ts.Below above id)
    (there : (cancelFrom above index reached list)[place]? = some t) :
    ∃ t', list[place]? = some t' ∧ t.parent = t'.parent ∧
      (t.cancelled = true → t'.cancelled = true ∨ ts.Below above (index + place)) := by
  induction list generalizing place index reached with
  | nil => cases there
  | cons u rest ih =>
    obtain ⟨here, after⟩ := drop_cons tail
    rw [cancelFrom_cons] at there
    cases place with
    | zero =>
      refine ⟨u, rfl, ?_⟩
      split at there
      · rename_i hit
        cases there
        exact ⟨rfl, fun _ => .inr (marks_below here passed hit)⟩
      · cases there
        exact ⟨rfl, .inl⟩
    | succ place =>
      rw [List.getElem?_cons_succ, ← Nat.add_assoc, Nat.add_right_comm]
      split at there
      · rename_i hit
        refine ih after (fun id inside => ?_) there
        rcases List.mem_cons.mp inside with rfl | earlier
        · exact ⟨Nat.lt_succ_self _, marks_below here passed hit⟩
        · exact ⟨Nat.lt_succ_of_lt (passed id earlier).1, (passed id earlier).2⟩
      · exact ih after (fun id inside => ⟨Nat.lt_succ_of_lt (passed id inside).1, (passed id inside).2⟩) there

theorem cancelFrom_length : (cancelFrom above index reached list).length = list.length := by
  induction list generalizing index reached with
  | nil => rfl
  | cons u rest ih =>
    rw [cancelFrom_cons]
    split <;> rw [List.length_cons, ih, List.length_cons]

theorem cancel_length (ts : Tokens) (above : TokenId) : (ts.cancel above).list.length = ts.list.length :=
  cancelFrom_length

theorem cancel_cancelled (there : (ts.cancel above).list[id]? = some t) :
    ∃ t', ts.list[id]? = some t' ∧ t.parent = t'.parent ∧
      (t.cancelled = true → t'.cancelled = true ∨ ts.Below above id) := by
  have passed : ∀ id ∈ ([] : List TokenId), id < 0 ∧ ts.Below above id := nofun
  have done := cancelFrom_cancelled List.drop_zero passed there
  rwa [Nat.zero_add] at done

/-- Tokens were made and cancelled since: those of `ts` are where they were. -/
def Continues (ts ts' : Tokens) : Prop :=
  ∀ (id : TokenId) (t : Token), ts.list[id]? = some t →
    ∃ t', ts'.list[id]? = some t' ∧ t'.parent = t.parent ∧ (t.cancelled = true → t'.cancelled = true)

theorem Continues.refl (ts : Tokens) : ts.Continues ts := fun _ t there => ⟨t, there, rfl, fun gone => gone⟩

theorem Continues.trans {ts'' : Tokens} (first : ts.Continues ts') (second : ts'.Continues ts'') :
    ts.Continues ts'' := by
  intro id t there
  obtain ⟨t', there', parent, gone⟩ := first id t there
  obtain ⟨t'', there'', parent', gone'⟩ := second id t' there'
  exact ⟨t'', there'', parent'.trans parent, gone' ∘ gone⟩

theorem Continues.isCancelled (continues : ts.Continues ts') (gone : ts.isCancelled id = true) :
    ts'.isCancelled id = true := by
  obtain ⟨t, there, cancelled⟩ := isCancelled_iff.mp gone
  obtain ⟨t', there', _, still⟩ := continues id t there
  exact isCancelled_iff.mpr ⟨t', there', still cancelled⟩

theorem append_continues (ts : Tokens) (more : List Token) : ts.Continues ⟨ts.list ++ more⟩ :=
  fun _ t there =>
    ⟨t, (List.getElem?_append_left (List.getElem?_eq_some_iff.mp there).1).trans there, rfl, fun gone => gone⟩

theorem cancel_continues (ts : Tokens) (above : TokenId) : ts.Continues (ts.cancel above) := by
  intro id t there
  have known : id < (ts.cancel above).list.length := by
    rw [cancel_length]
    exact (List.getElem?_eq_some_iff.mp there).1
  obtain ⟨t', there', parent, _⟩ := cancel_cancelled (List.getElem?_eq_getElem known)
  cases there.symm.trans there'
  refine ⟨_, List.getElem?_eq_getElem known, parent, fun gone => ?_⟩
  have kept := cancel_keeps (isCancelled_iff.mpr ⟨t, there, gone⟩) above
  obtain ⟨t'', there'', gone'⟩ := isCancelled_iff.mp kept
  cases there''.symm.trans (List.getElem?_eq_getElem known)
  exact gone'

theorem Below.continued (continues : ts.Continues ts') (below : ts.Below above id) : ts'.Below above id := by
  induction below with
  | self => exact .self
  | child there under later _ ih =>
    obtain ⟨t', there', parent, _⟩ := continues _ _ there
    exact .child there' (parent.trans under) later ih

theorem Below.before (continues : ts.Continues ts') (below : ts'.Below above id) (known : id < ts.list.length) :
    ts.Below above id := by
  induction below with
  | self => exact .self
  | child there under later _ ih =>
    obtain ⟨t', there', parent, _⟩ := continues _ _ (List.getElem?_eq_getElem known)
    cases there.symm.trans there'
    exact .child (List.getElem?_eq_getElem known) (parent.symm.trans under) later (ih (Nat.lt_trans later known))

/-- Just the tokens below one of those that are marked are cancelled. -/
structure Traced (ts : Tokens) (marked : TokenId → Prop) : Prop where
  known : ∀ above, marked above → above < ts.list.length
  cancelled : ∀ id < ts.list.length, ts.isCancelled id = true ↔ ∃ above, marked above ∧ ts.Below above id

theorem append_isCancelled (known : id < ts.list.length) (more : List Token) :
    isCancelled ⟨ts.list ++ more⟩ id = ts.isCancelled id := by
  rw [isCancelled, isCancelled, List.getElem?_append_left known]

/-- A new token, about which it is known whether it is below one that is marked. -/
theorem Traced.append (traced : ts.Traced marked)
    (new : t.cancelled = true ↔ ∃ above, marked above ∧ Below ⟨ts.list ++ [t]⟩ above ts.list.length) :
    Traced ⟨ts.list ++ [t]⟩ marked := by
  have length : (ts.list ++ [t]).length = ts.list.length + 1 := List.length_append
  refine ⟨fun above mark => ?_, fun id known => ?_⟩
  · rw [length]
    exact Nat.lt_succ_of_lt (traced.known above mark)
  · rw [length] at known
    rcases Nat.lt_succ_iff_lt_or_eq.mp known with earlier | rfl
    · rw [append_isCancelled earlier, traced.cancelled id earlier]
      constructor
      · rintro ⟨above, mark, below⟩
        exact ⟨above, mark, below.continued (append_continues ts [t])⟩
      · rintro ⟨above, mark, below⟩
        exact ⟨above, mark, below.before (append_continues ts [t]) earlier⟩
    · rw [← new, isCancelled, List.getElem?_concat_length]

theorem fresh_traced (traced : ts.Traced marked) : ts.fresh.2.Traced marked := by
  refine traced.append ⟨nofun, ?_⟩
  rintro ⟨above, mark, below⟩
  cases below with
  | self => exact absurd (traced.known _ mark) (Nat.lt_irrefl _)
  | child there under =>
    rw [List.getElem?_concat_length] at there
    cases there
    cases under

theorem child_traced (traced : ts.Traced marked) (known : parent < ts.list.length) :
    (ts.child parent).2.Traced marked := by
  refine traced.append ?_
  rw [traced.cancelled parent known]
  have continues : ts.Continues (ts.child parent).2 := append_continues ts _
  constructor
  · rintro ⟨above, mark, below⟩
    exact ⟨above, mark, .child List.getElem?_concat_length rfl known (below.continued continues)⟩
  · rintro ⟨above, mark, below⟩
    cases below with
    | self => exact absurd (traced.known _ mark) (Nat.lt_irrefl _)
    | child there under later below =>
      rw [List.getElem?_concat_length] at there
      cases there
      cases under
      exact ⟨above, mark, below.before continues known⟩

theorem cancel_isCancelled_iff (known : id < ts.list.length) :
    (ts.cancel above).isCancelled id = true ↔ ts.isCancelled id = true ∨ ts.Below above id := by
  constructor
  · intro gone
    obtain ⟨t, there, cancelled⟩ := isCancelled_iff.mp gone
    obtain ⟨t', there', _, before⟩ := cancel_cancelled there
    rcases before cancelled with already | below
    · exact .inl (isCancelled_iff.mpr ⟨t', there', already⟩)
    · exact .inr below
  · rintro (gone | below)
    · exact cancel_keeps gone above
    · exact cancel_reaches below known

theorem cancel_traced (traced : ts.Traced marked) (known : above < ts.list.length) :
    (ts.cancel above).Traced fun id => marked id ∨ id = above := by
  have continues := cancel_continues ts above
  refine ⟨fun id mark => ?_, fun id inside => ?_⟩
  · rw [cancel_length]
    rcases mark with earlier | rfl
    · exact traced.known id earlier
    · exact known
  · rw [cancel_length] at inside
    rw [cancel_isCancelled_iff inside, traced.cancelled id inside]
    constructor
    · rintro (⟨other, mark, below⟩ | below)
      · exact ⟨other, .inl mark, below.continued continues⟩
      · exact ⟨above, .inr rfl, below.continued continues⟩
    · rintro ⟨other, mark | rfl, below⟩
      · exact .inl ⟨other, mark, below.before continues inside⟩
      · exact .inr (below.before continues inside)

end Tokens
end Handover
