import Handover.Context

/-!
# Cancellations and deadlines

A token that is cancelled stays so, and the cancellation of a token reaches every one below it: `cancel_reaches`. A wait
that a context bounds lasts until `Context.latest`.
-/

namespace Handover

namespace Tokens
variable {ts : Tokens} {id above index : Nat} {reached : List TokenId} {list : List Token} {t : Token}

/-- The token is `above` or was made below it. -/
inductive Below (ts : Tokens) (above : TokenId) : TokenId → Prop where
  | self : Below ts above above
  | child {id parent : TokenId} {t : Token} (there : ts.list[id]? = some t) (under : t.parent = some parent)
      (later : parent < id) (below : Below ts above parent) : Below ts above id

theorem isCancelled_iff : ts.isCancelled id = true ↔ ∃ t, ts.list[id]? = some t ∧ t.cancelled = true := by
  unfold isCancelled
  cases ts.list[id]? <;> simp

theorem fresh_keeps (gone : ts.isCancelled id = true) : ts.fresh.2.isCancelled id = true := by
  obtain ⟨t, there, cancelled⟩ := isCancelled_iff.mp gone
  refine isCancelled_iff.mpr ⟨t, ?_, cancelled⟩
  exact (List.getElem?_append_left (List.getElem?_eq_some_iff.mp there).1).trans there

theorem child_keeps (gone : ts.isCancelled id = true) (parent : TokenId) :
    (ts.child parent).2.isCancelled id = true := by
  obtain ⟨t, there, cancelled⟩ := isCancelled_iff.mp gone
  refine isCancelled_iff.mpr ⟨t, ?_, cancelled⟩
  exact (List.getElem?_append_left (List.getElem?_eq_some_iff.mp there).1).trans there

/-- Whether a cancellation marks the token whose turn it is. -/
def marks (above index : TokenId) (reached : List TokenId) (t : Token) : Bool :=
  index = above || (match t.parent with
    | some p => reached.contains p
    | none => false)

theorem cancelFrom_cons (above index : TokenId) (reached : List TokenId) (t : Token) (rest : List Token) :
    cancelFrom above index reached (t :: rest) =
      if marks above index reached t then
        { t with cancelled := true } :: cancelFrom above (index + 1) (index :: reached) rest
      else t :: cancelFrom above (index + 1) reached rest := rfl

theorem cancelFrom_keeps {place : Nat} (there : list[place]? = some t) (cancelled : t.cancelled = true) :
    ∃ t', (cancelFrom above index reached list)[place]? = some t' ∧ t'.cancelled = true := by
  induction list generalizing place index reached with
  | nil => cases there
  | cons u rest ih =>
    rw [cancelFrom_cons]
    cases place with
    | zero =>
      obtain rfl : u = t := Option.some.inj there
      split
      · exact ⟨_, rfl, rfl⟩
      · exact ⟨u, rfl, cancelled⟩
    | succ place =>
      split
      · exact ih there
      · exact ih there

theorem cancel_keeps (gone : ts.isCancelled id = true) (above : TokenId) : (ts.cancel above).isCancelled id = true := by
  obtain ⟨t, there, cancelled⟩ := isCancelled_iff.mp gone
  exact isCancelled_iff.mpr (cancelFrom_keeps there cancelled)

theorem drop_cons {rest : List Token} (tail : ts.list.drop index = t :: rest) :
    ts.list[index]? = some t ∧ ts.list.drop (index + 1) = rest := by
  constructor
  · have first := congrArg (·[0]?) tail
    simpa using first
  · rw [← List.tail_drop, tail, List.tail_cons]

/-- A token whose turn comes is marked if it is below, as of those before it all that are below were reached. -/
theorem cancelFrom_reaches {place : Nat} (tail : ts.list.drop index = list)
    (earlier : ∀ id : Nat, id < index → ts.Below above id → id ∈ reached) (below : ts.Below above (index + place))
    (known : place < list.length) :
    ∃ t, (cancelFrom above index reached list)[place]? = some t ∧ t.cancelled = true := by
  induction list generalizing place index reached with
  | nil => cases known
  | cons u rest ih =>
    obtain ⟨here, after⟩ := drop_cons tail
    have marked : ts.Below above index → marks above index reached u = true := by
      intro below
      cases below with
      | self => simp [marks]
      | child there under later below =>
        obtain rfl := Option.some.inj (there.symm.trans here)
        simp [marks, under, earlier _ later below]
    rw [cancelFrom_cons]
    cases place with
    | zero =>
      rw [if_pos (marked below)]
      exact ⟨_, rfl, rfl⟩
    | succ place =>
      have known' : place < rest.length := Nat.succ_lt_succ_iff.mp known
      have below' : ts.Below above (index + 1 + place) := by
        have same : index + 1 + place = index + (place + 1) := by omega
        exact same ▸ below
      split
      · refine ih after (fun id before below => ?_) below' known'
        by_cases same : id = index
        · exact same ▸ .head _
        · exact .tail _ (earlier id (by omega) below)
      · rename_i unmarked
        refine ih after (fun id before below => ?_) below' known'
        by_cases same : id = index
        · exact absurd (marked (same ▸ below)) unmarked
        · exact earlier id (by omega) below

theorem cancel_reaches (below : ts.Below above id) (known : id < ts.list.length) :
    (ts.cancel above).isCancelled id = true := by
  refine isCancelled_iff.mpr (cancelFrom_reaches List.drop_zero (fun _ before => nomatch before) ?_ known)
  rwa [Nat.zero_add]

end Tokens

namespace Context
variable {c : Context} {ts : Tokens} {now : Moment} {timeout : Nat}

/-- When a wait of this length ends that begins now, unless it ends earlier. -/
def latest (c : Context) (now : Moment) (timeout : Nat) : Moment :=
  match c.deadline with
  | some d => min (now + timeout) d
  | none => now + timeout

theorem check_ok_iff :
    c.check ts now = .ok () ↔ ts.isCancelled c.token = false ∧ ∀ d, c.deadline = some d → now < d := by
  unfold check expired
  cases ts.isCancelled c.token <;> cases c.deadline <;> simp

theorem effectiveTimeout_eq (alive : c.check ts now = .ok ()) (timeout : Nat) :
    now + c.effectiveTimeout now timeout = c.latest now timeout := by
  obtain ⟨_, ahead⟩ := check_ok_iff.mp alive
  unfold effectiveTimeout remaining latest
  cases deadline : c.deadline with
  | none => rfl
  | some d =>
    have capped : ∀ t length last : Nat, t < last → t + min (last - t) length = min (t + length) last := by omega
    exact capped now timeout d (ahead d deadline)

end Context
end Handover
