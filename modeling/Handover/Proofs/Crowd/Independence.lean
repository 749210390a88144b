import Handover.Proofs.Call.Likeness
import Handover.Proofs.Crowd

/-!
# Calls for disjoint pairs of agents

To one of several calls whose names are all different the others are only others who leave its entries alone. So
it ends as it would alone, if its caller does the same and its ping gets the same answer.
-/

namespace Handover

/-- The orders have no name in common. -/
def Order.Disjoint (o p : Order) : Prop := ∀ name ∈ [o.oldName, o.newName], name ∉ [p.oldName, p.newName]

theorem disjoint_symm (o p : Order) (disjoint : o.Disjoint p) : p.Disjoint o :=
  fun name own other => disjoint name other own

namespace Crowd
variable {crowd crowd' : Crowd} {b : Beat} {beats : List Beat} {i : Nat} {m : Member} {swap : Except Error Swap}
  {f : Fate} {name : String} {c : Coordinator} {orders : List Order}

/-- The call in this place gets at its beats what its fate has for it. -/
def Meets (i : Nat) (f : Fate) (crowd : Crowd) (b : Beat) : Prop :=
  b.member = i → ∀ m s, crowd.Has i m → m.swap = some (.ok s) → f.Met s b.around b.heard

/-- The calls are for disjoint pairs of agents of one registry. -/
structure Disjoint (crowd : Crowd) : Prop where
  sane : Sane crowd
  made : crowd.coordinator.registry.Made
  apart : crowd.Apart Order.Disjoint

theorem goes_disjoint (disjoint : Disjoint crowd) (goes : Goes crowd b crowd') : Disjoint crowd' := by
  refine ⟨goes_sane disjoint.sane goes, ?_, goes_apart disjoint.apart goes⟩
  cases goes with
  | stayed | placed => exact disjoint.made
  | moved _ _ moves => exact Swap.moves_made disjoint.made moves

theorem goes_spares (disjoint : Disjoint crowd) (there : crowd.Has i m) (other : b.member ≠ i)
    (goes : Goes crowd b crowd') :
    ∀ name ∈ [m.order.oldName, m.order.newName], crowd'.agents.get? name = crowd.agents.get? name := by
  intro name own
  cases goes with
  | stayed | placed => rfl
  | @moved n s s' c' found begun moves =>
    have runs := disjoint.sane.runs _ _ found _ begun
    have edits := Swap.moves_edits disjoint.sane.named runs.grounded moves
    have apart := disjoint.apart i b.member m n (Ne.symm other) there found name own
    simp only [List.mem_cons, List.not_mem_nil, or_false, not_or, ← runs.oldName, ← runs.newName] at apart
    exact edits.elsewhere runs.grounded apart.1 apart.2

theorem goes_other (there : crowd.Has i m) (other : b.member ≠ i) (goes : Goes crowd b crowd') :
    crowd'.Has i m := by
  cases goes with
  | stayed => exact there
  | placed found => exact has_put_other found there (Ne.symm other)
  | moved found => exact has_put_other found there (Ne.symm other)

theorem beat_own (there : crowd.Has b.member m) (begun : m.swap = some swap) :
    crowd.beat b = crowd.put b.member
      (m.call ((⟨swap, crowd.coordinator⟩ : Call).turn (.own b.around b.heard)).swap)
      ((⟨swap, crowd.coordinator⟩ : Call).turn (.own b.around b.heard)).coordinator := by
  have found : crowd.members[b.member]? = some m := there
  simp [beat, found, Member.take, begun]

theorem beat_placed (there : crowd.Has b.member m) (fresh : m.swap = none) :
    crowd.beat b = crowd.put b.member (m.call (m.order.start crowd.coordinator).swap) crowd.coordinator := by
  have found : crowd.members[b.member]? = some m := there
  simp [beat, found, Member.take, fresh, Order.start]

/-- To a call that was placed, the others are others that spare its entries. -/
theorem play_seen (disjoint : Disjoint crowd) (there : crowd.Has i m) (begun : m.swap = some swap)
    (met : crowd.Always (Meets i f) beats) :
    ∃ turns, (crowd.play beats).Has i (m.call ((⟨swap, crowd.coordinator⟩ : Call).play turns).swap) ∧
      ((⟨swap, crowd.coordinator⟩ : Call).play turns).coordinator = (crowd.play beats).coordinator ∧
      (⟨swap, crowd.coordinator⟩ : Call).Always (Call.Spares [m.order.oldName, m.order.newName]) turns ∧
      (⟨swap, crowd.coordinator⟩ : Call).Always (Call.Meets f) turns ∧
      turns.countP Turn.isOwn = beats.countP (·.member = i) := by
  induction beats generalizing crowd m swap with
  | nil =>
    have same : m.call swap = m := by rw [Member.call, ← begun]
    exact ⟨[], same.symm ▸ there, rfl, trivial, trivial, rfl⟩
  | cons b rest ih =>
    have goes := @beat_goes crowd b
    have later := goes_disjoint disjoint goes
    by_cases own : b.member = i
    · subst own
      let call : Call := ⟨swap, crowd.coordinator⟩
      let next : Call := call.turn (.own b.around b.heard)
      have beaten : crowd.beat b = crowd.put b.member (m.call next.swap) next.coordinator := beat_own there begun
      have still : (crowd.beat b).Has b.member (m.call next.swap) := beaten ▸ has_put_self there
      obtain ⟨turns, ends, last, spared, meets, count⟩ := ih later still rfl met.2
      have same : (⟨next.swap, (crowd.beat b).coordinator⟩ : Call) = next := by rw [beaten]; rfl
      rw [same] at ends last spared meets
      refine ⟨.own b.around b.heard :: turns, ends, last, ⟨trivial, spared⟩, ⟨?_, meets⟩, ?_⟩
      · intro s same
        exact met.1 rfl m s there (begun.trans (congrArg some same))
      · simp [Turn.isOwn, List.countP_cons, count]
    · have still := goes_other there own goes
      obtain ⟨turns, ends, last, spared, meets, count⟩ := ih later still begun met.2
      refine ⟨.others (crowd.beat b).coordinator :: turns, ends, last, ⟨?_, spared⟩, ⟨trivial, meets⟩, ?_⟩
      · exact goes_spares disjoint there own goes
      · simpa [Turn.isOwn, own] using count

/-- A call that was placed ends as one of its order does among others that spare its entries. -/
theorem play_fresh (disjoint : Disjoint crowd) (there : crowd.Has i m) (fresh : m.swap = none)
    (met : crowd.Always (Meets i f) beats) :
    (beats.countP (·.member = i) = 0 ∧ (crowd.play beats).Has i m) ∨
    ∃ (c : Coordinator) (turns : List Turn), c.registry.Made ∧
      (∀ name ∈ [m.order.oldName, m.order.newName], c.registry.agents.get? name = crowd.agents.get? name) ∧
      (crowd.play beats).Has i (m.call ((m.order.start c).play turns).swap) ∧
      ((m.order.start c).play turns).coordinator = (crowd.play beats).coordinator ∧
      (m.order.start c).Always (Call.Spares [m.order.oldName, m.order.newName]) turns ∧
      (m.order.start c).Always (Call.Meets f) turns ∧
      turns.countP Turn.isOwn + 1 = beats.countP (·.member = i) := by
  induction beats generalizing crowd with
  | nil => exact .inl ⟨rfl, there⟩
  | cons b rest ih =>
    have goes := @beat_goes crowd b
    have later := goes_disjoint disjoint goes
    by_cases own : b.member = i
    · subst own
      right
      have beaten := beat_placed there fresh
      have still : (crowd.beat b).Has b.member (m.call (m.order.start crowd.coordinator).swap) :=
        beaten ▸ has_put_self there
      obtain ⟨turns, ends, last, spared, meets, count⟩ := play_seen later still rfl met.2
      have same : (⟨(m.order.start crowd.coordinator).swap, (crowd.beat b).coordinator⟩ : Call) =
          m.order.start crowd.coordinator := by
        rw [beaten]
        rfl
      rw [same] at ends last spared meets
      refine ⟨crowd.coordinator, turns, disjoint.made, fun _ _ => rfl, ends, last, spared, meets, ?_⟩
      simp [count]
    · have still := goes_other there own goes
      rcases ih later still met.2 with ⟨never, fresh⟩ | ⟨c, turns, made, entries, rest⟩
      · exact .inl ⟨by simpa [own] using never, fresh⟩
      · right
        refine ⟨c, turns, made, ?_, ?_⟩
        · intro name there'
          exact (entries name there').trans (goes_spares disjoint there own goes name there')
        · simpa [own] using rest

/-- Calls for disjoint pairs of agents return, and end, as each of them would alone. -/
theorem disjoint_calls_independent {o o' : Order} {c' : Coordinator} {f' : Fate} {turns : List Turn}
    (made : c.registry.Made) (made' : c'.registry.Made) (same : c'.registry.agents = c.registry.agents)
    (disjoint : orders.Pairwise Order.Disjoint) (placed : orders[i]? = some o) (like : o.Alike o')
    (fates : f.Alike f') (met : (gather orders c).Always (Meets i f) beats)
    (alone : ∀ t ∈ turns, t.isOwn = true) (met' : (o'.start c').Always (Call.Meets f') turns) :
    (SwapPhase.opening.turnsLeft < beats.countP (·.member = i) →
      (((gather orders c).play beats).outcome? i).isSome = true) ∧
    (SwapPhase.opening.turnsLeft ≤ turns.length → ((o'.start c').play turns).outcome?.isSome = true) ∧
    ∀ outcome outcome', ((gather orders c).play beats).outcome? i = some outcome →
      ((o'.start c').play turns).outcome? = some outcome' →
        outcome.Alike outcome' ∧ ∀ name ∈ [o.oldName, o.newName],
          (((gather orders c).play beats).agents.get? name).map Registration.undated =
            (((o'.start c').play turns).agents.get? name).map Registration.undated := by
  have there : (gather orders c).Has i { order := o } := by simp [Has, gather, placed]
  have start : (gather orders c).Disjoint :=
    ⟨gather_sane (Registry.made_named made) orders, made, gather_apart disjoint_symm disjoint c⟩
  have spared' := Call.always_spares [o.oldName, o.newName] alone (o'.start c')
  have returns' : SwapPhase.opening.turnsLeft ≤ turns.length → ((o'.start c').play turns).outcome?.isSome = true := by
    intro enough
    apply Call.play_returns
    rw [List.countP_eq_length.mpr alone]
    exact enough
  rcases play_fresh start there rfl met with
    ⟨never, fresh⟩ | ⟨c₁, seen, made₁, entries, ends, last, spared, meets, count⟩
  · have unended : ((gather orders c).play beats).outcome? i = none := by
      have found : ((gather orders c).play beats).members[i]? = some { order := o } := fresh
      simp [outcome?, found, Member.outcome?]
    refine ⟨fun enough => ?_, returns', fun outcome _ ended => ?_⟩
    · omega
    · rw [unended] at ended
      cases ended
  · have ended : ((gather orders c).play beats).outcome? i = ((o.start c₁).play seen).outcome? := by
      have found : ((gather orders c).play beats).members[i]? = some _ := ends
      simp only [outcome?, found, Option.bind_some, Member.outcome?, Member.call_swap, ← last]
    refine ⟨fun enough => ?_, returns', fun outcome outcome' returned returned' => ?_⟩
    · rw [ended]
      apply Call.play_returns
      omega
    · rw [ended] at returned
      have entries' : Call.SameEntries o c₁ c' := by
        intro name own
        rw [same, entries name own]
        rfl
      obtain ⟨outcomes, left⟩ :=
        Call.alike_calls_end_alike made₁ made' like entries' fates spared meets spared' met' returned returned'
      refine ⟨outcomes, fun name own => ?_⟩
      have final := left name own
      rw [Call.agents, last] at final
      exact final

end Crowd

/-! ## Two calls for different pairs to look at -/

namespace Sample

def aide : Registration := .new "aide" "worker" ⟨0, 0⟩

def pairs : Coordinator := { coordinator with registry := coordinator.registry.store aide }

def aside : Order := { order with oldName := "aide", newName := "deputy", session := "swap-2" }

/-- The first call gets a reply and the second one does not; they take turns. -/
def sideBeats : List Beat :=
  (List.replicate 27 [({ member := 0, around := { time := ⟨2, 0⟩ }, heard := .ok (some alive) } : Beat),
    { member := 1, around := { time := ⟨2, 0⟩ }, heard := unanswered }]).flatten

/-- The first call alone, later. -/
def alone : List Turn := List.replicate 26 (.own { time := ⟨9, 0⟩ } (.ok (some { alive with id := "2" })))

def side : Crowd := Crowd.gather [order, aside] pairs

/-- The caller never gives up, and the reply comes. -/
def fate (id : String) : Fate where
  caller := fun _ => .ok ()
  reply := .ok (some { alive with id })

theorem pairs_made : pairs.registry.Made := .restore made (Registry.restore_eq _ aide (by decide))

theorem fates_alike : (fate "1").Alike (fate "2") := ⟨rfl, .messages rfl⟩

theorem side_met : side.Always (Crowd.Meets 0 (fate "1")) sideBeats := by
  have patient : ∀ b ∈ sideBeats, b.around = { time := ⟨2, 0⟩ } ∧ (b.member = 0 → b.heard = .ok (some alive)) := by
    simp [sideBeats]
  refine Crowd.always_of_keeps (I := fun crowd => crowd.Sane ∧ ∀ m, crowd.Has 0 m → m.order.context = order.context)
    ?_ ?_ ⟨Crowd.gather_sane (Registry.made_named pairs_made) _, ?_⟩
  · rintro crowd b crowd' ⟨sane, context⟩ goes
    refine ⟨Crowd.goes_sane sane goes, fun m there => ?_⟩
    obtain ⟨m', earlier, same⟩ := Crowd.goes_order goes there
    exact same ▸ context m' earlier
  · rintro crowd b there ⟨sane, context⟩ own m s found begun
    obtain ⟨around, heard⟩ := patient b there
    refine ⟨fun _ => ?_, fun _ => heard own⟩
    rw [around, (sane.runs 0 m found s begun).context, context m found]
    rfl
  · intro m there
    cases there
    rfl

theorem alone_met : (order.start pairs).Always (Call.Meets (fate "2")) alone := by
  have each : (order.start pairs).Always
      (fun _ t => t = .own { time := ⟨9, 0⟩ } (.ok (some { alive with id := "2" }))) alone :=
    Call.always_of_mem (fun _ _ there => List.eq_of_mem_replicate there) _
  refine ((Call.always_fits order pairs alone).and each).imp ?_
  rintro call _ ⟨fits, rfl⟩ s begun
  refine ⟨fun _ => ?_, fun _ => rfl⟩
  rw [(fits s begun).context]
  rfl

end Sample

namespace Crowd

theorem disjoint_calls_independent_of_two :
    ∃ outcome outcome', (Sample.side.play Sample.sideBeats).outcome? 0 = some outcome ∧
      ((Sample.order.start Sample.pairs).play Sample.alone).outcome? = some outcome' ∧ outcome.Alike outcome' ∧
      ((Sample.side.play Sample.sideBeats).agents.get? "heir").map Registration.undated =
        (((Sample.order.start Sample.pairs).play Sample.alone).agents.get? "heir").map Registration.undated := by
  have disjoint : [Sample.order, Sample.aside].Pairwise Order.Disjoint := by
    simp [Order.Disjoint, Sample.order, Sample.aside]
  have own : ∀ t ∈ Sample.alone, t.isOwn = true := by
    intro t there
    rw [List.eq_of_mem_replicate there]
    rfl
  obtain ⟨returns, returns', ends⟩ := disjoint_calls_independent (i := 0) Sample.pairs_made Sample.pairs_made rfl disjoint rfl
    ⟨rfl, rfl, rfl⟩ Sample.fates_alike Sample.side_met own Sample.alone_met
  obtain ⟨outcome, ended⟩ := Option.isSome_iff_exists.mp (returns (by decide))
  obtain ⟨outcome', ended'⟩ := Option.isSome_iff_exists.mp (returns' (by decide))
  obtain ⟨alike, left⟩ := ends outcome outcome' ended ended'
  exact ⟨outcome, outcome', ended, ended', alike, left "heir" (by decide)⟩

end Crowd
end Handover
