import Handover.Proofs.Context.Tokens

/-!
# Contexts that are made from one another

Contexts are copied, perhaps with a tighter deadline, and have children; each of them can be cancelled at any time. In
whichever order that is done, `contexts_nest`: just those are cancelled that are under one on which that was asked
for, and none is still alive, or waits longer, than one from which it was made.
-/

namespace Handover

namespace Context
variable {a b c : Context} {ts ts' : Tokens} {now later timeout left : Nat} {e : Error}

/-- The context ends no later than the other one. -/
def Within (c a : Context) : Prop := ∀ d, a.deadline = some d → ∃ d', c.deadline = some d' ∧ d' ≤ d

theorem Within.refl (c : Context) : c.Within c := fun d ends => ⟨d, ends, Nat.le_refl d⟩

theorem Within.trans (first : c.Within b) (second : b.Within a) : c.Within a := by
  intro d ends
  obtain ⟨d', ends', sooner⟩ := second d ends
  obtain ⟨d'', ends'', sooner'⟩ := first d' ends'
  exact ⟨d'', ends'', Nat.le_trans sooner' sooner⟩

theorem deadlineAt_within (c : Context) (deadline : Moment) : (c.deadlineAt deadline).Within c := by
  intro d ends
  refine ⟨min d deadline, ?_, Nat.min_le_left d deadline⟩
  rw [deadlineAt, ends]

/-- A context that has failed has been cancelled or is out of time; the first counts if both are so. -/
theorem check_error_iff : c.check ts now = .error e ↔
    ts.isCancelled c.token = true ∧ e = .cancelled ∨
      ts.isCancelled c.token = false ∧ (∃ d, c.deadline = some d ∧ d ≤ now) ∧ e = .deadlineExceeded := by
  unfold check expired
  cases ts.isCancelled c.token with
  | true => simp [eq_comm]
  | false =>
    cases c.deadline with
    | none => simp
    | some d => by_cases passed : d ≤ now <;> simp [passed, eq_comm]

/-- A context that ends with another one fails with it, and from then on. -/
theorem check_fails (within : c.Within a) (cancels : ts.isCancelled a.token = true → ts'.isCancelled c.token = true)
    (since : now ≤ later) (failed : a.check ts now = .error e) :
    c.check ts' later = .error (if ts'.isCancelled c.token then .cancelled else .deadlineExceeded) ∧
      (e = .cancelled → c.check ts' later = .error .cancelled) := by
  rcases check_error_iff.mp failed with ⟨gone, _⟩ | ⟨alive, ⟨d, ends, passed⟩, late⟩
  · have fails : c.check ts' later = .error .cancelled := check_error_iff.mpr (.inl ⟨cancels gone, rfl⟩)
    rw [if_pos (cancels gone)]
    exact ⟨fails, fun _ => fails⟩
  · refine ⟨check_error_iff.mpr ?_, fun gone => nomatch late.symm.trans gone⟩
    obtain ⟨d', ends', sooner⟩ := within d ends
    cases gone : ts'.isCancelled c.token with
    | true => exact .inl ⟨rfl, rfl⟩
    | false => exact .inr ⟨rfl, ⟨d', ends', Nat.le_trans sooner (Nat.le_trans passed since)⟩, rfl⟩

theorem effectiveTimeout_le (within : c.Within a) (bounded : a.remaining now = some left) :
    c.effectiveTimeout now timeout ≤ left := by
  obtain ⟨d, ends, rfl⟩ := Option.map_eq_some_iff.mp bounded
  obtain ⟨d', ends', sooner⟩ := within d ends
  rw [effectiveTimeout, remaining, ends']
  exact Nat.le_trans (Nat.min_le_left _ _) (Nat.sub_le_sub_right sooner now)

end Context

/-- How a context came about. -/
inductive Origin where
  | new
  | copy (source : Nat)
  | child (parent : Nat)
  deriving DecidableEq, Repr

structure Relative where
  context : Context
  origin : Origin
  deriving DecidableEq, Repr

/-- Contexts in the order of their making, and the places of those on which a cancellation was asked for. -/
structure Family where
  tokens : Tokens := {}
  members : List Relative := []
  cancels : List Nat := []
  deriving DecidableEq, Repr

/-- What is done with the contexts that there are, each of which is named by its place. -/
inductive Derivation where
  | new
  | clone (source : Nat)
  | deadlineAt (source : Nat) (deadline : Moment)
  | child (parent : Nat)
  | cancel (place : Nat)
  deriving DecidableEq, Repr

namespace Family

def enter (l : Family) (made : Context × Tokens) (origin : Origin) : Family :=
  { l with tokens := made.2, members := l.members ++ [⟨made.1, origin⟩] }

/-- Goes on with the context at a place. Nothing can be done with a context that is not there. -/
def onMember (l : Family) (place : Nat) (go : Context → Family) : Family :=
  match l.members[place]? with
  | some r => go r.context
  | none => l

def act (l : Family) : Derivation → Family
  | .new => l.enter (Context.fresh l.tokens) .new
  | .clone source => l.onMember source fun c => l.enter (c, l.tokens) (.copy source)
  | .deadlineAt source deadline => l.onMember source fun c => l.enter (c.deadlineAt deadline, l.tokens) (.copy source)
  | .child parent => l.onMember parent fun c => l.enter (c.child l.tokens) (.child parent)
  | .cancel place =>
    l.onMember place fun c => { l with tokens := l.tokens.cancel c.token, cancels := l.cancels ++ [place] }

def run (l : Family) (derivations : List Derivation) : Family := derivations.foldl act l

variable {l l' : Family} {i j k source parent : Nat} {id above : TokenId} {r s : Relative} {c : Context} {ts : Tokens}
  {origin : Origin} {made : Context × Tokens} {derivation : Derivation}

def Came (l : Family) (i : Nat) (origin : Origin) : Prop := ∃ r, l.members[i]? = some r ∧ r.origin = origin

/-- The one is a copy of the other, or both are copies of a third, and so on. -/
inductive Shares (l : Family) : Nat → Nat → Prop where
  | self {i : Nat} : Shares l i i
  | copy {i source : Nat} (came : l.Came i (.copy source)) : Shares l i source
  | symm {i j : Nat} (shares : Shares l i j) : Shares l j i
  | trans {i j k : Nat} (first : Shares l i j) (second : Shares l j k) : Shares l i k

/-- The context shares the token of `above`, or that of a child of a context under it. -/
inductive Under (l : Family) (above : Nat) : Nat → Prop where
  | shares {i : Nat} (shares : l.Shares above i) : Under l above i
  | child {parent child i : Nat} (under : Under l above parent) (came : l.Came child (.child parent))
      (shares : l.Shares child i) : Under l above i

/-- The context was made from the other one, by any number of copies and children. -/
inductive Descends (l : Family) (ancestor : Nat) : Nat → Prop where
  | self : Descends l ancestor ancestor
  | copy {i source : Nat} (descends : Descends l ancestor source) (came : l.Came i (.copy source)) :
      Descends l ancestor i
  | child {i parent : Nat} (descends : Descends l ancestor parent) (came : l.Came i (.child parent)) :
      Descends l ancestor i

/-- Two children of a parent, or of contexts that share a token. -/
def Siblings (l : Family) (i j : Nat) : Prop :=
  i ≠ j ∧ ∃ p q, l.Came i (.child p) ∧ l.Came j (.child q) ∧ l.Shares p q

def Holds (l : Family) (i : Nat) (id : TokenId) : Prop := ∃ r, l.members[i]? = some r ∧ r.context.token = id

/-- The token was made for this context. -/
def Founds (l : Family) (i : Nat) (id : TokenId) : Prop :=
  ∃ r, l.members[i]? = some r ∧ r.context.token = id ∧ ∀ source, r.origin ≠ .copy source

def Marked (l : Family) (id : TokenId) : Prop := ∃ k ∈ l.cancels, l.Holds k id

/-- What the origin of a context says of its token and its deadline. -/
inductive Derived (l : Family) (i : Nat) (r : Relative) : Prop where
  | new {t : Token} (origin : r.origin = .new) (there : l.tokens.list[r.context.token]? = some t)
      (top : t.parent = none)
  | copy {source : Nat} {s : Relative} (origin : r.origin = .copy source) (before : source < i)
      (found : l.members[source]? = some s) (same : r.context.token = s.context.token)
      (within : r.context.Within s.context)
  | child {parent : Nat} {p : Relative} {t : Token} (origin : r.origin = .child parent) (before : parent < i)
      (found : l.members[parent]? = some p) (there : l.tokens.list[r.context.token]? = some t)
      (under : t.parent = some p.context.token) (later : p.context.token < r.context.token)
      (within : r.context.Within p.context)

/-- Every token was made for one context, and just those below that of a cancelled context are cancelled. -/
structure Sound (l : Family) : Prop where
  derived : ∀ (i : Nat) (r : Relative), l.members[i]? = some r → l.Derived i r
  known : ∀ i id, l.Holds i id → id < l.tokens.list.length
  founder : ∀ id < l.tokens.list.length, ∃ i, l.Founds i id
  sole : ∀ i j id, l.Founds i id → l.Founds j id → i = j
  called : ∀ k ∈ l.cancels, ∃ id, l.Holds k id
  traced : l.tokens.Traced l.Marked

/-- Derivations may have come between: the contexts are where they were, and so are the tokens. -/
structure Later (l l' : Family) : Prop where
  members : ∀ (i : Nat) (r : Relative), l.members[i]? = some r → l'.members[i]? = some r
  tokens : l.tokens.Continues l'.tokens

theorem Later.refl (l : Family) : l.Later l := ⟨fun _ _ there => there, .refl l.tokens⟩

theorem Later.trans {l'' : Family} (first : l.Later l') (second : l'.Later l'') : l.Later l'' :=
  ⟨fun i r there => second.members i r (first.members i r there), first.tokens.trans second.tokens⟩

/-- What a derivation can come to. -/
inductive Goes (l : Family) : Family → Prop where
  | stayed : Goes l l
  | began : Goes l (l.enter (Context.fresh l.tokens) .new)
  | copied {source : Nat} {s : Relative} {c : Context} (found : l.members[source]? = some s)
      (same : c.token = s.context.token) (within : c.Within s.context) :
      Goes l (l.enter (c, l.tokens) (.copy source))
  | bore {parent : Nat} {p : Relative} (found : l.members[parent]? = some p) :
      Goes l (l.enter (p.context.child l.tokens) (.child parent))
  | cancelled {k : Nat} {s : Relative} (found : l.members[k]? = some s) :
      Goes l { l with tokens := l.tokens.cancel s.context.token, cancels := l.cancels ++ [k] }

theorem onMember_goes {go : Context → Family} (goes : ∀ r, l.members[i]? = some r → l.Goes (go r.context)) :
    l.Goes (l.onMember i go) := by
  unfold onMember
  split
  · rename_i r found
    exact goes r found
  · exact .stayed

theorem act_goes (l : Family) (derivation : Derivation) : l.Goes (l.act derivation) := by
  cases derivation with
  | new => exact .began
  | clone source =>
    unfold act
    exact onMember_goes fun r found => .copied found rfl (.refl r.context)
  | deadlineAt source deadline =>
    unfold act
    exact onMember_goes fun r found => .copied found rfl (r.context.deadlineAt_within deadline)
  | child parent =>
    unfold act
    exact onMember_goes fun r found => .bore found
  | cancel place =>
    unfold act
    exact onMember_goes fun r found => .cancelled found

theorem enter_later (continues : l.tokens.Continues made.2) : l.Later (l.enter made origin) :=
  ⟨fun _ _ there => (List.getElem?_append_left (List.getElem?_eq_some_iff.mp there).1).trans there, continues⟩

theorem Goes.later (goes : l.Goes l') : l.Later l' := by
  cases goes with
  | stayed => exact .refl l
  | began => exact enter_later (Tokens.append_continues l.tokens _)
  | copied found same within => exact enter_later (.refl l.tokens)
  | bore found => exact enter_later (Tokens.append_continues l.tokens _)
  | cancelled found => exact ⟨fun _ _ there => there, Tokens.cancel_continues l.tokens _⟩

theorem run_later (l : Family) (derivations : List Derivation) : l.Later (l.run derivations) := by
  induction derivations generalizing l with
  | nil => exact .refl l
  | cons derivation rest ih => exact (act_goes l derivation).later.trans (ih (l.act derivation))

theorem Derived.continued (later : l.Later l') (derived : l.Derived i r) : l'.Derived i r := by
  cases derived with
  | new origin there top =>
    obtain ⟨t', there', parent, _⟩ := later.tokens _ _ there
    exact .new origin there' (parent.trans top)
  | copy origin before found same within => exact .copy origin before (later.members _ _ found) same within
  | child origin before found there under earlier within =>
    obtain ⟨t', there', parent, _⟩ := later.tokens _ _ there
    exact .child origin before (later.members _ _ found) there' (parent.trans under) earlier within

/-! ## What every derivation keeps -/

theorem Holds.continued (later : l.Later l') (holds : l.Holds i id) : l'.Holds i id := by
  obtain ⟨r, there, token⟩ := holds
  exact ⟨r, later.members i r there, token⟩

theorem Holds.unique {id' : TokenId} (first : l.Holds i id) (second : l.Holds i id') : id = id' := by
  obtain ⟨r, there, rfl⟩ := first
  obtain ⟨r', there', rfl⟩ := second
  cases there.symm.trans there'
  rfl

theorem Founds.holds (founds : l.Founds i id) : l.Holds i id := by
  obtain ⟨r, there, token, _⟩ := founds
  exact ⟨r, there, token⟩

theorem Founds.continued (later : l.Later l') (founds : l.Founds i id) : l'.Founds i id := by
  obtain ⟨r, there, token, original⟩ := founds
  exact ⟨r, later.members i r there, token, original⟩

theorem enter_members (there : (l.enter made origin).members[i]? = some r) :
    l.members[i]? = some r ∨ i = l.members.length ∧ r = ⟨made.1, origin⟩ := by
  rcases Nat.lt_or_ge i l.members.length with earlier | beyond
  · exact .inl ((List.getElem?_append_left earlier).symm.trans there)
  · rw [enter, List.getElem?_append_right beyond, List.getElem?_singleton] at there
    split at there
    · cases there
      exact .inr ⟨by omega, rfl⟩
    · cases there

theorem enter_holds (holds : (l.enter made origin).Holds i id) :
    l.Holds i id ∨ i = l.members.length ∧ id = made.1.token := by
  obtain ⟨r, there, rfl⟩ := holds
  rcases enter_members there with earlier | ⟨last, rfl⟩
  · exact .inl ⟨r, earlier, rfl⟩
  · exact .inr ⟨last, rfl⟩

theorem enter_founds (founds : (l.enter made origin).Founds i id) :
    l.Founds i id ∨ i = l.members.length ∧ id = made.1.token ∧ ∀ source, origin ≠ .copy source := by
  obtain ⟨r, there, rfl, original⟩ := founds
  rcases enter_members there with earlier | ⟨last, rfl⟩
  · exact .inl ⟨r, earlier, rfl, original⟩
  · exact .inr ⟨last, rfl, original⟩

theorem entered (l : Family) (made : Context × Tokens) (origin : Origin) :
    (l.enter made origin).members[l.members.length]? = some ⟨made.1, origin⟩ := List.getElem?_concat_length

theorem Sound.enter_marked (sound : l.Sound) : (l.enter made origin).Marked id ↔ l.Marked id := by
  constructor
  · rintro ⟨k, asked, holds⟩
    rcases enter_holds holds with earlier | ⟨last, _⟩
    · exact ⟨k, asked, earlier⟩
    · obtain ⟨_, r, there, _⟩ := sound.called k asked
      exact absurd (List.getElem?_eq_some_iff.mp there).1 (last ▸ Nat.lt_irrefl _)
  · rintro ⟨k, asked, r, there, token⟩
    exact ⟨k, asked, r, (List.getElem?_append_left (List.getElem?_eq_some_iff.mp there).1).trans there, token⟩

/-- A context enters, for which the only new token is made unless it is a copy. -/
theorem Sound.enter (sound : l.Sound) (continues : l.tokens.Continues made.2)
    (derived : (l.enter made origin).Derived l.members.length ⟨made.1, origin⟩)
    (founding : (∃ source, origin = .copy source) ∧ made.2.list.length = l.tokens.list.length ∧
        made.1.token < l.tokens.list.length ∨
      (∀ source, origin ≠ .copy source) ∧ made.2.list.length = l.tokens.list.length + 1 ∧
        made.1.token = l.tokens.list.length)
    (traced : made.2.Traced l.Marked) : (l.enter made origin).Sound := by
  have later : l.Later (l.enter made origin) := enter_later continues
  have grown : l.tokens.list.length ≤ made.2.list.length := by
    rcases founding with ⟨_, same, _⟩ | ⟨_, more, _⟩
    · exact Nat.le_of_eq same.symm
    · exact more ▸ Nat.le_succ _
  have fresh : ∀ i id, l.Founds i id → id = made.1.token → ∃ source, origin = .copy source := by
    intro i id founds same
    have known := sound.known i id founds.holds
    rcases founding with ⟨copy, _⟩ | ⟨_, _, new⟩
    · exact copy
    · rw [same, new] at known
      exact absurd known (Nat.lt_irrefl _)
  constructor
  · intro i r there
    rcases enter_members there with earlier | ⟨rfl, rfl⟩
    · exact (sound.derived i r earlier).continued later
    · exact derived
  · intro i id holds
    show id < made.2.list.length
    rcases enter_holds holds with earlier | ⟨_, rfl⟩
    · exact Nat.lt_of_lt_of_le (sound.known i id earlier) grown
    · rcases founding with ⟨_, same, known⟩ | ⟨_, more, new⟩
      · exact same ▸ known
      · rw [more, new]
        exact Nat.lt_succ_self _
  · intro id known
    have bound : id < made.2.list.length := known
    have old : id < l.tokens.list.length → ∃ i, (l.enter made origin).Founds i id := by
      intro old
      obtain ⟨i, founds⟩ := sound.founder id old
      exact ⟨i, founds.continued later⟩
    rcases founding with ⟨_, same, _⟩ | ⟨original, more, new⟩
    · exact old (same ▸ bound)
    · rcases Nat.lt_succ_iff_lt_or_eq.mp (more ▸ bound) with earlier | last
      · exact old earlier
      · exact ⟨l.members.length, _, entered l made origin, new.trans last.symm, original⟩
  · intro i j id first second
    rcases enter_founds first with earlier | ⟨last, new, original⟩
    · rcases enter_founds second with earlier' | ⟨last', new', original'⟩
      · exact sound.sole i j id earlier earlier'
      · obtain ⟨source, copy⟩ := fresh i id earlier new'
        exact absurd copy (original' source)
    · rcases enter_founds second with earlier' | ⟨last', _⟩
      · obtain ⟨source, copy⟩ := fresh j id earlier' new
        exact absurd copy (original source)
      · exact last.trans last'.symm
  · intro k asked
    obtain ⟨id, holds⟩ := sound.called k asked
    exact ⟨id, holds.continued later⟩
  · have same : (l.enter made origin).Marked = l.Marked := funext fun id => propext sound.enter_marked
    rw [same]
    exact traced

theorem cancel_marked (found : l.members[k]? = some s) :
    Marked { l with tokens := ts, cancels := l.cancels ++ [k] } = fun id => l.Marked id ∨ id = s.context.token := by
  funext id
  refine propext ⟨?_, ?_⟩
  · rintro ⟨j, asked, holds⟩
    rcases List.mem_append.mp asked with earlier | last
    · exact .inl ⟨j, earlier, holds⟩
    · rw [List.mem_singleton.mp last] at holds
      exact .inr (Holds.unique holds ⟨s, found, rfl⟩)
  · rintro (⟨j, asked, holds⟩ | rfl)
    · exact ⟨j, List.mem_append_left [k] asked, holds⟩
    · exact ⟨k, List.mem_append_right l.cancels List.mem_cons_self, s, found, rfl⟩

theorem empty_sound : Sound {} where
  derived _ _ there := nomatch there
  known _ _ holds := by
    obtain ⟨_, there, _⟩ := holds
    cases there
  founder _ known := nomatch known
  sole _ _ _ founds := by
    obtain ⟨_, there, _⟩ := founds
    cases there
  called _ asked := nomatch asked
  traced := by
    refine ⟨fun _ mark => ?_, fun _ known => nomatch known⟩
    obtain ⟨_, asked, _⟩ := mark
    cases asked

theorem Goes.sound (goes : l.Goes l') (sound : l.Sound) : l'.Sound := by
  cases goes with
  | stayed => exact sound
  | began =>
    refine sound.enter (Tokens.append_continues l.tokens _) ?_ (.inr ⟨nofun, List.length_append, rfl⟩)
      (Tokens.fresh_traced sound.traced)
    exact .new rfl List.getElem?_concat_length rfl
  | copied found same within =>
    have known := sound.known _ _ ⟨_, found, same.symm⟩
    refine sound.enter (.refl l.tokens) ?_ (.inl ⟨⟨_, rfl⟩, rfl, known⟩) sound.traced
    have before := (List.getElem?_eq_some_iff.mp found).1
    exact .copy rfl before ((enter_later (.refl l.tokens)).members _ _ found) same within
  | @bore parent p found =>
    have known := sound.known _ _ ⟨p, found, rfl⟩
    have continues : l.tokens.Continues (l.tokens.child p.context.token).2 := Tokens.append_continues l.tokens _
    refine sound.enter continues ?_ (.inr ⟨nofun, List.length_append, rfl⟩) (Tokens.child_traced sound.traced known)
    have before := (List.getElem?_eq_some_iff.mp found).1
    exact .child rfl before ((enter_later continues).members _ _ found) List.getElem?_concat_length rfl known (.refl _)
  | @cancelled k s found =>
    have later := (Goes.cancelled found).later
    have length := Tokens.cancel_length l.tokens s.context.token
    refine ⟨fun i r there => (sound.derived i r there).continued later, fun i id holds => ?_, fun id known => ?_,
      sound.sole, fun j asked => ?_, ?_⟩
    · exact length ▸ sound.known i id holds
    · exact sound.founder id (length ▸ known)
    · rcases List.mem_append.mp asked with earlier | last
      · exact sound.called j earlier
      · rw [List.mem_singleton.mp last]
        exact ⟨_, s, found, rfl⟩
    · rw [cancel_marked found]
      exact Tokens.cancel_traced sound.traced (sound.known k _ ⟨s, found, rfl⟩)

theorem run_sound (sound : l.Sound) (derivations : List Derivation) : (l.run derivations).Sound := by
  induction derivations generalizing l with
  | nil => exact sound
  | cons derivation rest ih => exact ih ((act_goes l derivation).sound sound)

/-! ## The tokens of contexts that are made from one another -/

theorem Sound.copied (sound : l.Sound) (came : l.Came i (.copy source)) :
    ∃ r s, l.members[i]? = some r ∧ l.members[source]? = some s ∧ source < i ∧
      r.context.token = s.context.token ∧ r.context.Within s.context := by
  obtain ⟨r, there, copy⟩ := came
  cases sound.derived i r there with
  | copy origin before found same within =>
    cases copy.symm.trans origin
    exact ⟨r, _, there, found, before, same, within⟩
  | _ origin => cases copy.symm.trans origin

theorem Sound.born (sound : l.Sound) (came : l.Came i (.child parent)) :
    ∃ r p t, l.members[i]? = some r ∧ l.members[parent]? = some p ∧ l.tokens.list[r.context.token]? = some t ∧
      t.parent = some p.context.token ∧ p.context.token < r.context.token ∧ r.context.Within p.context := by
  obtain ⟨r, there, child⟩ := came
  cases sound.derived i r there with
  | child origin before found token under later within =>
    cases child.symm.trans origin
    exact ⟨r, _, _, there, found, token, under, later, within⟩
  | _ origin => cases child.symm.trans origin

theorem Shares.holds (sound : l.Sound) (shares : l.Shares i j) : l.Holds i id ↔ l.Holds j id := by
  induction shares with
  | self => exact .rfl
  | copy came =>
    obtain ⟨r, s, there, found, _, same, _⟩ := sound.copied came
    constructor
    · exact fun holds => ⟨s, found, same.symm.trans (Holds.unique ⟨r, there, rfl⟩ holds)⟩
    · exact fun holds => ⟨r, there, same.trans (Holds.unique ⟨s, found, rfl⟩ holds)⟩
  | symm _ ih => exact ih.symm
  | trans _ _ ih ih' => exact ih.trans ih'

/-- Every context shares its token with the one for which that was made. -/
theorem Sound.founded (sound : l.Sound) (holds : l.Holds i id) : ∃ f, l.Founds f id ∧ l.Shares f i := by
  -- A copy comes after its source, so the induction is on the place.
  induction i using Nat.strongRecOn with
  | ind i ih =>
    obtain ⟨r, there, token⟩ := holds
    cases origin : r.origin with
    | copy source =>
      have came : l.Came i (.copy source) := ⟨r, there, origin⟩
      have shares : l.Shares i source := .copy came
      obtain ⟨_, _, _, _, before, _⟩ := sound.copied came
      obtain ⟨f, founds, shares'⟩ := ih source before ((shares.holds sound).mp ⟨r, there, token⟩)
      exact ⟨f, founds, shares'.trans shares.symm⟩
    | _ => exact ⟨i, ⟨r, there, token, fun _ copy => nomatch origin.symm.trans copy⟩, .self⟩

theorem Sound.shares (sound : l.Sound) (first : l.Holds i id) (second : l.Holds j id) : l.Shares i j := by
  obtain ⟨f, founds, shares⟩ := sound.founded first
  obtain ⟨f', founds', shares'⟩ := sound.founded second
  obtain rfl := sound.sole f f' id founds founds'
  exact shares.symm.trans shares'

theorem Sound.below (sound : l.Sound) (under : l.Under k i) (top : l.Holds k above) (holds : l.Holds i id) :
    l.tokens.Below above id := by
  induction under generalizing id with
  | shares shares =>
    obtain rfl := Holds.unique holds ((shares.holds sound).mp top)
    exact .self
  | child _ came shares ih =>
    obtain ⟨r, p, t, there, found, token, parent, later, _⟩ := sound.born came
    obtain rfl := Holds.unique ((shares.holds sound).mpr holds) ⟨r, there, rfl⟩
    exact .child token parent later (ih ⟨p, found, rfl⟩)

theorem Sound.under (sound : l.Sound) (below : l.tokens.Below above id) (top : l.Holds k above)
    (holds : l.Holds i id) : l.Under k i := by
  induction below generalizing i with
  | self => exact .shares (sound.shares top holds)
  | @child id _ t there parent _ _ ih =>
    obtain ⟨f, ⟨r, found, token, original⟩, shares⟩ := sound.founded holds
    have own : l.tokens.list[r.context.token]? = some t := token ▸ there
    cases sound.derived f r found with
    | new _ there' none =>
      cases own.symm.trans there'
      cases parent.symm.trans none
    | copy origin => exact absurd origin (original _)
    | child origin _ found' there' parent' =>
      cases own.symm.trans there'
      cases parent.symm.trans parent'
      exact .child (ih ⟨_, found', rfl⟩) ⟨r, found, origin⟩ shares

theorem Sound.under_iff (sound : l.Sound) (top : l.Holds k above) (holds : l.Holds i id) :
    l.Under k i ↔ l.tokens.Below above id :=
  ⟨fun under => sound.below under top holds, fun below => sound.under below top holds⟩

theorem Under.share (under : l.Under k i) (shares : l.Shares i j) : l.Under k j := by
  cases under with
  | shares above => exact .shares (above.trans shares)
  | child under came below => exact .child under came (below.trans shares)

theorem Descends.under (descends : l.Descends k i) : l.Under k i := by
  induction descends with
  | self => exact .shares .self
  | copy _ came ih => exact ih.share (.symm (.copy came))
  | child _ came ih => exact .child ih came .self

theorem Descends.within (sound : l.Sound) (descends : l.Descends k i) (top : l.members[k]? = some s)
    (there : l.members[i]? = some r) : r.context.Within s.context := by
  induction descends generalizing r with
  | self =>
    cases top.symm.trans there
    exact .refl s.context
  | copy _ came ih =>
    obtain ⟨r', s', there', found, _, _, within⟩ := sound.copied came
    cases there.symm.trans there'
    exact within.trans (ih found)
  | child _ came ih =>
    obtain ⟨r', p, t, there', found, _, _, _, within⟩ := sound.born came
    cases there.symm.trans there'
    exact within.trans (ih found)

theorem Sound.cancelled_iff (sound : l.Sound) (holds : l.Holds i id) :
    l.tokens.isCancelled id = true ↔ ∃ k ∈ l.cancels, l.Under k i := by
  rw [sound.traced.cancelled id (sound.known i id holds)]
  constructor
  · rintro ⟨above, ⟨k, asked, top⟩, below⟩
    exact ⟨k, asked, sound.under below top holds⟩
  · rintro ⟨k, asked, under⟩
    obtain ⟨above, top⟩ := sound.called k asked
    exact ⟨above, ⟨k, asked, top⟩, sound.below under top holds⟩

theorem Under.trans (first : l.Under k i) (second : l.Under i j) : l.Under k j := by
  induction second with
  | shares shares => exact first.share shares
  | child _ came shares ih => exact .child ih came shares

/-- What is under a cancelled context is cancelled. -/
theorem Sound.cancelled_under (sound : l.Sound) (under : l.Under k i) (top : l.Holds k above) (holds : l.Holds i id)
    (gone : l.tokens.isCancelled above = true) : l.tokens.isCancelled id = true := by
  obtain ⟨first, asked, under'⟩ := (sound.cancelled_iff top).mp gone
  exact (sound.cancelled_iff holds).mpr ⟨first, asked, under'.trans under⟩

/-- A cancellation changes what is under the context on which it is asked for. -/
theorem Sound.cancel_iff (sound : l.Sound) (top : l.Holds k above) (holds : l.Holds i id) :
    (l.act (.cancel k)).tokens.isCancelled id = true ↔ l.tokens.isCancelled id = true ∨ l.Under k i := by
  rw [sound.under_iff top holds, ← Tokens.cancel_isCancelled_iff (sound.known i id holds)]
  obtain ⟨s, found, rfl⟩ := top
  rw [act, onMember, found]

theorem Sound.not_under_parent (sound : l.Sound) (came : l.Came i (.child parent)) : ¬ l.Under i parent := by
  intro under
  obtain ⟨r, p, t, there, found, _, _, later, _⟩ := sound.born came
  exact absurd (sound.below under ⟨r, there, rfl⟩ ⟨p, found, rfl⟩).le (Nat.not_le_of_lt later)

theorem Came.founds (came : l.Came i (.child parent)) (there : l.members[i]? = some r) :
    l.Founds i r.context.token := by
  obtain ⟨r', there', origin⟩ := came
  cases there.symm.trans there'
  exact ⟨r, there, rfl, fun _ copy => nomatch origin.symm.trans copy⟩

theorem Sound.not_under_sibling (sound : l.Sound) (siblings : l.Siblings i j) : ¬ l.Under i j := by
  intro under
  obtain ⟨other, p, q, came, came', shares⟩ := siblings
  obtain ⟨r, p', t, there, found, _, _, later, _⟩ := sound.born came
  obtain ⟨r', q', t', there', found', token', parent', _, _⟩ := sound.born came'
  rcases (sound.below under ⟨r, there, rfl⟩ ⟨r', there', rfl⟩).same_or_parent with same | ⟨u, above, token, parent, below⟩
  · exact other (sound.sole i j _ (came.founds there) (same ▸ came'.founds there'))
  · cases token.symm.trans token'
    cases parent.symm.trans parent'
    obtain same := Holds.unique ((shares.holds sound).mp ⟨p', found, rfl⟩) ⟨q', found', rfl⟩
    exact absurd below.le (Nat.not_le_of_lt (same ▸ later))

/-- What holds of contexts however they were made. Those derived from a context include the context itself. -/
structure Nested (l : Family) : Prop where
  /-- Just what is under a context on which a cancellation was asked for is cancelled. -/
  cancelled : ∀ i r, l.members[i]? = some r →
    (l.tokens.isCancelled r.context.token = true ↔ ∃ k ∈ l.cancels, l.Under k i)
  /-- The cancellation of a context adds to these just what is under it. -/
  reach : ∀ k i s r, l.members[k]? = some s → l.members[i]? = some r →
    ((l.act (.cancel k)).tokens.isCancelled r.context.token = true ↔
      l.tokens.isCancelled r.context.token = true ∨ l.Under k i)
  /-- The cancellation of a child changes nothing for the parent, nor for its other children. -/
  spares : ∀ child parent i r, l.Came child (.child parent) → l.Shares parent i ∨ l.Siblings child i →
    l.members[i]? = some r →
    (l.act (.cancel child)).tokens.isCancelled r.context.token = l.tokens.isCancelled r.context.token
  /-- A context ends no later than one from which it was derived. -/
  deadline : ∀ k i s r, l.Descends k i → l.members[k]? = some s → l.members[i]? = some r →
    r.context.Within s.context
  /-- What is derived from a context that has failed fails too, whatever is done in between. A cancellation counts
  before the deadline. -/
  fails : ∀ derivations k i s r now later e, l.members[k]? = some s → (l.run derivations).Descends k i →
    (l.run derivations).members[i]? = some r → now ≤ later → s.context.check l.tokens now = .error e →
    r.context.check (l.run derivations).tokens later =
        .error (if (l.run derivations).tokens.isCancelled r.context.token then .cancelled else .deadlineExceeded) ∧
      (e = .cancelled → r.context.check (l.run derivations).tokens later = .error .cancelled)
  /-- A wait is no longer than the time that is left to a context from which that of the wait was derived. -/
  waits : ∀ k i s r now left timeout, l.Descends k i → l.members[k]? = some s → l.members[i]? = some r →
    s.context.remaining now = some left → r.context.effectiveTimeout now timeout ≤ left

theorem Sound.spares (sound : l.Sound) (came : l.Came i (.child parent))
    (beside : l.Shares parent j ∨ l.Siblings i j) (there : l.members[j]? = some r) :
    (l.act (.cancel i)).tokens.isCancelled r.context.token = l.tokens.isCancelled r.context.token := by
  have apart : ¬ l.Under i j := by
    rcases beside with shares | siblings
    · exact fun under => sound.not_under_parent came (under.share shares.symm)
    · exact sound.not_under_sibling siblings
  obtain ⟨s, _, _, top, _⟩ := sound.born came
  rw [Bool.eq_iff_iff, sound.cancel_iff ⟨s, top, rfl⟩ ⟨r, there, rfl⟩]
  exact or_iff_left apart

/-- Cancellations and deadlines follow the derivations of contexts, in whichever order all that is done. -/
theorem contexts_nest (derivations : List Derivation) : (run {} derivations).Nested := by
  have sound := run_sound empty_sound derivations
  refine ⟨fun i r there => sound.cancelled_iff ⟨r, there, rfl⟩,
    fun k i s r top there => sound.cancel_iff ⟨s, top, rfl⟩ ⟨r, there, rfl⟩,
    fun child parent i r came beside there => sound.spares came beside there,
    fun k i s r descends top there => descends.within sound top there, ?_,
    fun k i s r now left timeout descends top there bounded =>
      Context.effectiveTimeout_le (descends.within sound top there) bounded⟩
  intro more k i s r now later e top descends there since failed
  have after := run_later (run {} derivations) more
  have sound' := run_sound sound more
  have top' := after.members k s top
  refine Context.check_fails (descends.within sound' top' there) (fun gone => ?_) since failed
  exact sound'.cancelled_under descends.under ⟨s, top', rfl⟩ ⟨r, there, rfl⟩ (after.tokens.isCancelled gone)

end Family
end Handover
