import Handover.Proofs.Call
import Handover.Proofs.Swap.Fate

/-!
# Calls of the same fate

Two calls for the same names that find the same entries there, and whose callers do the same and whose pings get
the same answer, end alike: the records and the entries they leave differ in times and generated ids only.
-/

namespace Handover

/-! ## What is left when times and generated ids are taken away -/

def HistoryEntry.undated (e : HistoryEntry) : HistoryEntry :=
  { e with timestamp := ⟨0, 0⟩, details := e.details.erase "swap_id" }

def AgentState.undated (s : AgentState) : AgentState := { s with history := s.history.map HistoryEntry.undated }

def Registration.undated (a : Registration) : Registration :=
  { a with state := a.state.undated, registeredAt := ⟨0, 0⟩, lastHeartbeat := ⟨0, 0⟩ }

def Message.undated (m : Message) : Message := { m with id := "", replyTo := none, sentAt := ⟨0, 0⟩ }

/-- Replies that differ in times and generated ids only. -/
inductive RepliesAlike : Except Error (Option Message) → Except Error (Option Message) → Prop where
  | same (reply : Except Error (Option Message)) : RepliesAlike reply reply
  | messages (alike : m.undated = m'.undated) : RepliesAlike (.ok (some m)) (.ok (some m'))

/-- The errors are the same, but for the id of a reply that cannot be read. -/
inductive Error.Alike : Error → Error → Prop where
  | same (e : Error) : Alike e e
  | unreadable {m m' : Message} (alike : m.undated = m'.undated) (bad : m.decodePayload Reply.decode = .error e)
      (bad' : m'.decodePayload Reply.decode = .error e') : Alike e e'

structure Fate.Alike (f f' : Fate) : Prop where
  caller : f.caller = f'.caller
  reply : RepliesAlike f.reply f'.reply

structure Session.Alike (a b : Session) : Prop where
  oldName : a.oldName = b.oldName
  newName : a.newName = b.newName
  status : a.status = b.status
  lines : a.lines = b.lines
  snapshot : a.snapshot.map AgentState.undated = b.snapshot.map AgentState.undated

inductive Outcome.Alike : Outcome → Outcome → Prop where
  | completed (records : Session.Alike a b) (error : a.error = none) (error' : b.error = none) :
      Alike (.completed a) (.completed b)
  | failed (errors : Error.Alike e e') (records : Session.Alike a b) (error : a.error = some e.text)
      (error' : b.error = some e'.text) : Alike (.failed e (some a)) (.failed e' (some b))
  | refused (e : Error) : Alike (.failed e none) (.failed e none)

/-- The orders are for the same, perhaps by other callers at other times. -/
structure Order.Alike (o p : Order) : Prop where
  oldName : p.oldName = o.oldName
  newName : p.newName = o.newName
  changes : p.changes = o.changes

namespace Swap
variable {s s' : Swap}

theorem capturedState_undated (old : s'.old = s.old) (newName : s'.session.newName = s.session.newName)
    (now now' : Instant) : (s'.capturedState now').undated = (s.capturedState now).undated := by
  simp only [capturedState, AgentState.recordHistory, AgentState.undated, List.map_append, List.map_cons, List.map_nil,
    old, newName]
  rfl

theorem heir_undated (old : s'.old = s.old) (changes : s'.changes = s.changes)
    (oldName : s'.session.oldName = s.session.oldName) (newName : s'.session.newName = s.session.newName)
    (a b c a' b' c' : Instant) : (s'.heir a' b' c').undated = (s.heir a b c).undated := by
  simp only [heir, handed, successor, capturedState, AgentState.recordHistory, Registration.undated,
    AgentState.undated, List.map_append, List.map_cons, List.map_nil, old, changes, oldName, newName]
  rfl

end Swap

namespace Fate
variable {f f' : Fate} {s s' : Swap}

/-- The same, or nothing on either side, or errors that are alike. -/
def TroubleAlike (a b : Option Error) : Prop :=
  (a = none ∧ b = none) ∨ ∃ e e', a = some e ∧ b = some e' ∧ e.Alike e'

theorem troubleAlike_refl (a : Option Error) : TroubleAlike a a := by
  cases a with
  | none => exact .inl ⟨rfl, rfl⟩
  | some e => exact .inr ⟨e, e, rfl, rfl, .same e⟩

theorem verdict_alike {reply reply' : Except Error (Option Message)} (alike : RepliesAlike reply reply')
    (newName : s'.newName = s.newName) :
    TroubleAlike (troubleOf (s.verdict reply)) (troubleOf (s'.verdict reply')) := by
  cases alike with
  | same reply =>
    rw [verdict_congr newName]
    exact troubleAlike_refl _
  | @messages m m' alike =>
    have payload : m.undated.payload = m'.undated.payload := by rw [alike]
    have payload : m.payload = m'.payload := payload
    simp only [Swap.verdict, Swap.checkReply, newName]
    cases read : Decode.ofJson Reply.decode m.payload with
    | ok r =>
      have first : m.decodePayload Reply.decode = .ok r := by simp [Message.decodePayload, read]
      have second : m'.decodePayload Reply.decode = .ok r := by simp [Message.decodePayload, ← payload, read]
      rw [first, second]
      exact troubleAlike_refl _
    | error fault =>
      obtain ⟨e, first⟩ : ∃ e, m.decodePayload Reply.decode = .error e := by simp [Message.decodePayload, read]
      obtain ⟨e', second⟩ : ∃ e, m'.decodePayload Reply.decode = .error e := by
        simp [Message.decodePayload, ← payload, read]
      rw [first, second]
      exact .inr ⟨e, e', rfl, rfl, .unreadable alike first second⟩

/-- Whether the fates stop a swap is the same at every phase, and so is the error but for generated ids. -/
theorem trouble_alike (alike : f.Alike f') (newName : s'.newName = s.newName) (phase : SwapPhase) :
    TroubleAlike (f.trouble s phase) (f'.trouble s' phase) := by
  unfold trouble
  rw [← alike.caller]
  split
  · exact verdict_alike alike.reply newName
  all_goals exact troubleAlike_refl _

theorem stops_alike (alike : f.Alike f') (newName : s'.newName = s.newName) : f'.stops s' = f.stops s := by
  funext phase
  unfold stops
  rcases trouble_alike alike newName phase with ⟨none, none'⟩ | ⟨e, e', some, some', _⟩
  · rw [none, none']
  · rw [some, some']
    rfl

end Fate

namespace Call
variable {o o' : Order} {c c' : Coordinator} {s s' : Swap} {turns turns' : List Turn} {f f' : Fate}
  {outcome outcome' : Outcome}

/-- The call gets at this turn what its fate has for it. -/
def Meets (f : Fate) (call : Call) : Turn → Prop
  | .own around heard => ∀ s, call.swap = .ok s → f.Met s around heard
  | .others _ => True

/-- The swap has come some way under its fate. -/
def Fated (f : Fate) (s : Swap) : Prop := ∃ k, f.Tracks (.after (f.stops s) k) s

theorem play_fated (made : c.registry.Made) (spared : (o.start c).Always (Spares [o.oldName, o.newName]) turns)
    (met : (o.start c).Always (Meets f) turns) :
    ((o.start c).play turns).Holds fun s c' => o.Kept c s c' ∧ Fated f s := by
  have keeps : Keeps (fun call t => Spares [o.oldName, o.newName] call t ∧ Meets f call t)
      fun s c' => o.Kept c s c' ∧ Fated f s := by
    refine ⟨?_, ?_⟩
    · rintro s c' around heard s' c'' ⟨kept, k, tracks⟩ ⟨_, met⟩ moves
      have newName : s'.newName = s.newName := congrArg (·.2.2.2.2.2.1) (Swap.moves_terms moves)
      have stops : f.stops s' = f.stops s := by
        unfold Fate.stops
        rw [Fate.trouble_congr newName]
      refine ⟨own_kept kept moves, k + 1, ?_⟩
      rw [stops]
      exact Fate.moves_tracks kept.order tracks (met s rfl) moves
    · rintro s c' others ⟨kept, fated⟩ ⟨spared, _⟩
      exact ⟨others_kept kept spared, fated⟩
  have start : (o.start c).Holds fun s c' => o.Kept c s c' ∧ Fated f s := by
    intro s begun
    have reached := (start_onCourse o c s begun).reached (m := ⟨[], none, .initiating, false, false⟩)
      (by rw [(start_fits begun).2]; rfl)
    exact ⟨start_kept made s begun, 0, (start_fits begun).2, reached.error, nofun⟩
  exact play_keeps keeps start (spared.and met)

/-- The swap of the order is over, with this progress under its fate. -/
structure Ended (o : Order) (c : Coordinator) (f : Fate) (p : Progress) (s : Swap) (now : Coordinator) : Prop where
  kept : o.Kept c s now
  tracks : f.Tracks p s
  atEnd : s.isOver = true

/-- The entries of both names are the same in both coordinators. -/
def SameEntries (o : Order) (c c' : Coordinator) : Prop :=
  ∀ name ∈ [o.oldName, o.newName], c'.registry.agents.get? name = c.registry.agents.get? name

section
variable {p : Progress} {now now' : Coordinator}

theorem same_old (first : Ended o c f p s now) (second : Ended o' c' f' p s' now') (like : o.Alike o')
    (same : SameEntries o c c') : s'.old = s.old := by
  have there' := second.kept.fits.old
  rw [like.oldName, same _ (.head _)] at there'
  exact Option.some.inj (there'.symm.trans first.kept.fits.old)

theorem same_oldName (first : Ended o c f p s now) (second : Ended o' c' f' p s' now') (like : o.Alike o') :
    s'.session.oldName = s.session.oldName :=
  (second.kept.fits.oldName.trans like.oldName).trans first.kept.fits.oldName.symm

theorem same_newName (first : Ended o c f p s now) (second : Ended o' c' f' p s' now') (like : o.Alike o') :
    s'.session.newName = s.session.newName :=
  (second.kept.fits.newName.trans like.newName).trans first.kept.fits.newName.symm

theorem records_alike (first : Ended o c f p s now) (second : Ended o' c' f' p s' now') (like : o.Alike o')
    (same : SameEntries o c c') : s.session.Alike s'.session := by
  obtain ⟨status, lines, captured, _⟩ := Fate.over_record first.kept.order.course first.tracks first.atEnd
  obtain ⟨status', lines', captured', _⟩ := Fate.over_record second.kept.order.course second.tracks second.atEnd
  obtain ⟨snapshot, shown⟩ := Option.isSome_iff_exists.mp captured
  obtain ⟨snapshot', shown'⟩ := Option.isSome_iff_exists.mp captured'
  obtain ⟨at', rfl⟩ := first.kept.order.fits snapshot shown
  obtain ⟨at'', rfl⟩ := second.kept.order.fits snapshot' shown'
  have newName := same_newName first second like
  refine ⟨(same_oldName first second like).symm, newName.symm, status.trans status'.symm, lines.trans lines'.symm, ?_⟩
  rw [shown, shown']
  exact congrArg some (Swap.capturedState_undated (same_old first second like same) newName _ _).symm

theorem errors_alike (fates : f.Alike f') (first : Ended o c f p s now) (second : Ended o' c' f' p s' now')
    (like : o.Alike o') : Fate.TroubleAlike s.error s'.error := by
  rw [first.tracks.error, second.tracks.error]
  cases p.failedAt with
  | none => exact .inl ⟨rfl, rfl⟩
  | some place => exact Fate.trouble_alike fates (same_newName first second like) place

theorem outcomes_alike (fates : f.Alike f') (first : Ended o c f p s now) (second : Ended o' c' f' p s' now')
    (like : o.Alike o') (same : SameEntries o c c') :
    Outcome.Alike
      (match s.error with
        | none => .completed s.session
        | some e => .failed e (some s.session))
      (match s'.error with
        | none => .completed s'.session
        | some e => .failed e (some s'.session)) := by
  have records := records_alike first second like same
  obtain ⟨_, _, _, text⟩ := Fate.over_record first.kept.order.course first.tracks first.atEnd
  obtain ⟨_, _, _, text'⟩ := Fate.over_record second.kept.order.course second.tracks second.atEnd
  rcases errors_alike fates first second like with ⟨sound, sound'⟩ | ⟨e, e', failed, failed', alike⟩
  · rw [sound] at text ⊢
    rw [sound'] at text' ⊢
    exact .completed records text text'
  · rw [failed] at text ⊢
    rw [failed'] at text' ⊢
    exact .failed alike records text text'

theorem failed_entries (ended : Ended o c f p s now) {place : SwapPhase} (failedAt : p.failedAt = some place) :
    now.registry.agents.get? o.oldName = some (if place.pausedAt then s.resumedOld else s.old) ∧
      now.registry.agents.get? o.newName = c.registry.agents.get? o.newName := by
  obtain ⟨failed, paused, _⟩ := ended.tracks.failed place failedAt
  obtain ⟨old, new⟩ := (Swap.over_entries ended.kept.order.stands ended.atEnd).1 failed
  rw [ended.kept.fits.oldName, paused] at old
  rw [ended.kept.fits.newName] at new
  exact ⟨old, new⟩

theorem done_entries (ended : Ended o c f p s now) (failedAt : p.failedAt = none) :
    now.registry.agents.get? o.oldName = none ∧ ∃ enrolled captured transferred,
      now.registry.agents.get? o.newName = some (s.heir enrolled captured transferred) := by
  have sound := ended.tracks.error
  rw [failedAt, Option.bind_none] at sound
  have stood := (Swap.over_entries ended.kept.order.stands ended.atEnd).2 sound
  have gone : now.registry.agents.get? s.session.oldName = none := stood.old
  have there := stood.new
  rw [ended.kept.fits.oldName] at gone
  rw [ended.kept.fits.newName] at there
  exact ⟨gone, there⟩

/-- The entries after a swap that is over are the same but for times and ids. -/
theorem entries_alike (first : Ended o c f p s now) (second : Ended o' c' f' p s' now') (like : o.Alike o')
    (same : SameEntries o c c') :
    ∀ name ∈ [o.oldName, o.newName], (now.registry.agents.get? name).map Registration.undated =
      (now'.registry.agents.get? name).map Registration.undated := by
  have old := same_old first second like same
  have onNames : ∀ {entry entry' : String → Option Registration}, entry o.oldName = entry' o.oldName →
      entry o.newName = entry' o.newName → ∀ name ∈ [o.oldName, o.newName], entry name = entry' name := by
    intro entry entry' atOld atNew name there
    simp only [List.mem_cons, List.not_mem_nil, or_false] at there
    rcases there with rfl | rfl
    · exact atOld
    · exact atNew
  cases failedAt : p.failedAt with
  | none =>
    obtain ⟨gone, enrolled, captured, transferred, there⟩ := done_entries first failedAt
    obtain ⟨gone', enrolled', captured', transferred', there'⟩ := done_entries second failedAt
    rw [like.oldName] at gone'
    rw [like.newName] at there'
    apply onNames
    · rw [gone, gone']
    · have changes : s'.changes = s.changes :=
        (second.kept.fits.changes.trans like.changes).trans first.kept.fits.changes.symm
      rw [there, there', Option.map_some, Option.map_some, Swap.heir_undated old changes
        (same_oldName first second like) (same_newName first second like)]
  | some place =>
    obtain ⟨there, kept⟩ := failed_entries first failedAt
    obtain ⟨there', kept'⟩ := failed_entries second failedAt
    rw [like.oldName] at there'
    rw [like.newName] at kept'
    apply onNames
    · rw [there, there', Swap.resumedOld, Swap.resumedOld, old]
    · rw [kept, kept', same _ (.tail _ (.head _))]

end

/-- Two calls that are alike and meet alike fates have outcomes alike and leave entries alike. -/
theorem alike_calls_end_alike (made : c.registry.Made) (made' : c'.registry.Made) (like : o.Alike o')
    (same : SameEntries o c c') (fates : f.Alike f')
    (spared : (o.start c).Always (Spares [o.oldName, o.newName]) turns) (met : (o.start c).Always (Meets f) turns)
    (spared' : (o'.start c').Always (Spares [o.oldName, o.newName]) turns')
    (met' : (o'.start c').Always (Meets f') turns')
    (ended : ((o.start c).play turns).outcome? = some outcome)
    (ended' : ((o'.start c').play turns').outcome? = some outcome') :
    outcome.Alike outcome' ∧ ∀ name ∈ [o.oldName, o.newName],
      (((o.start c).play turns).agents.get? name).map Registration.undated =
        (((o'.start c').play turns').agents.get? name).map Registration.undated := by
  have begins : ∀ e, (o.start c).swap = .error e ↔ (o'.start c').swap = .error e := by
    intro e
    simp only [Order.start, Swap.begin?, like.oldName, like.newName, same _ (.head _)]
    split
    · rfl
    · split
      · rfl
      · split <;> simp
  cases begun : (o.start c).swap with
  | error e =>
    have begun' := (begins e).mp begun
    rw [outcome_refused (play_refused begun turns)] at ended
    rw [outcome_refused (play_refused begun' turns')] at ended'
    cases ended
    cases ended'
    refine ⟨.refused e, fun name there => ?_⟩
    rw [refused_spares begun spared there, refused_spares begun' spared' there]
    exact congrArg _ (same name there).symm
  | ok s₀ =>
    obtain ⟨s, ends⟩ := play_begun begun turns
    obtain ⟨s', ends'⟩ : ∃ s', ((o'.start c').play turns').swap = .ok s' := by
      cases begun' : (o'.start c').swap with
      | ok s₀' => exact play_begun begun' turns'
      | error e =>
        rw [(begins e).mpr begun'] at begun
        cases begun
    have spared'' : (o'.start c').Always (Spares [o'.oldName, o'.newName]) turns' := by
      rw [like.oldName, like.newName]
      exact spared'
    obtain ⟨kept, k, tracks⟩ := play_fated made spared met s ends
    obtain ⟨kept', n, tracks'⟩ := play_fated made' spared'' met' s' ends'
    obtain ⟨finished, rfl⟩ := outcome_begun ends ended
    obtain ⟨finished', rfl⟩ := outcome_begun ends' ended'
    have newName : s'.newName = s.newName :=
      (kept'.fits.newName.trans like.newName).trans kept.fits.newName.symm
    rw [Fate.stops_alike fates newName] at tracks'
    have atEnd : (Progress.after (f.stops s) k).phase = .finished := by
      rw [← tracks.phase]
      simpa [Swap.isOver] using finished
    have atEnd' : (Progress.after (f.stops s) n).phase = .finished := by
      rw [← tracks'.phase]
      simpa [Swap.isOver] using finished'
    rw [← Progress.one_end atEnd atEnd' rfl] at tracks'
    have first : Ended o c f _ s _ := ⟨kept, tracks, finished⟩
    have second : Ended o' c' f' _ s' _ := ⟨kept', tracks', finished'⟩
    exact ⟨outcomes_alike fates first second like same, entries_alike first second like same⟩

end Call
end Handover
