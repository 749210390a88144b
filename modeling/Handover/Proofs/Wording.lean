import Handover.Bus.Request
import Handover.Proofs.Registry
import Handover.Proofs.Swap.Course

/-!
# Errors have a text

Every error that stops a swap says something, if the bus reports no error without a text; the bus of this
library reports none.
-/

namespace Handover

theorem append_ne_empty {lead : String} (rest : String) (named : lead ≠ "") : lead ++ rest ≠ "" := by
  simp [named]

namespace Error

theorem communication_text (what : String) : (communication what).text ≠ "" := append_ne_empty _ (by decide)

theorem internal_text (what : String) : (internal what).text ≠ "" := append_ne_empty _ (by decide)

theorem timeout_text (subject : String) (millis : Nat) : (timeout subject millis).text ≠ "" :=
  append_ne_empty _ (append_ne_empty _ (append_ne_empty _ (append_ne_empty _ (by decide))))

theorem agentMissing_text (name : String) : (agentMissing name).text ≠ "" := append_ne_empty _ (by decide)

end Error

variable {ts : Tokens} {ctx : Context} {now : Moment} {e : Error}

theorem Context.check_text (gone : ctx.check ts now = .error e) : e.text ≠ "" := by
  unfold check at gone
  split at gone
  · cases gone
    decide
  · split at gone
    · cases gone
      decide
    · cases gone

namespace Bus
variable {b b' : Bus} {m : Message} {timeout : Nat} {inbox : String} {r : Request}

theorem openRequest_text (refused : b.openRequest ts ctx now m timeout inbox = (.error e, b')) : e.text ≠ "" := by
  unfold openRequest at refused
  split at refused
  · rename_i gone
    cases refused
    exact Context.check_text gone
  · simp only at refused
    split at refused
    · cases refused
      exact Error.communication_text _
    · split at refused
      · cases refused
        exact Error.communication_text _
      · cases refused

theorem poll_text {bound : Bound} (ended : bound.poll ts now = some e) : e.text ≠ "" := by
  unfold Bound.poll at ended
  split at ended
  · cases ended
    decide
  · split at ended
    · split at ended
      · cases ended
        exact Error.timeout_text _ _
      · cases ended
    · cases ended

theorem pollRequest_text (ended : b.pollRequest ts now r = some (.error e)) : e.text ≠ "" := by
  unfold pollRequest at ended
  split at ended
  · cases ended
  all_goals
    split at ended
    · cases polled : r.bound.poll ts now with
      | none =>
        simp only [polled, Option.getD_none, Option.some.injEq, Except.error.injEq] at ended
        exact ended ▸ Error.timeout_text _ _
      | some why =>
        simp only [polled, Option.getD_some, Option.some.injEq, Except.error.injEq] at ended
        exact ended ▸ poll_text polled
    · cases polled : r.bound.poll ts now with
      | none => simp [polled] at ended
      | some why =>
        simp only [polled, Option.map_some, Option.some.injEq, Except.error.injEq] at ended
        exact ended ▸ poll_text polled

end Bus

namespace Registry
variable {r : Registry} {name : String} {f : Registration → Registration} {a : Registration} {now : Instant}

theorem modify_text (refused : r.modify name f = .error e) : e.text ≠ "" := by
  cases found : r.agents.get? name with
  | none =>
    rw [modify_missing r f found] at refused
    cases refused
    exact Error.agentMissing_text name
  | some a =>
    rw [modify_found r f found] at refused
    cases refused

theorem register_text (refused : r.register a now = .error e) : e.text ≠ "" := by
  unfold register at refused
  split at refused
  · cases refused
    decide
  · cases refused

end Registry

theorem Message.decodePayload_text {α : Type} {decode : Decoder α} {m : Message}
    (bad : m.decodePayload decode = .error e) : e.text ≠ "" := by
  unfold decodePayload at bad
  split at bad
  · cases bad
  · cases bad
    exact Error.internal_text _

namespace Swap
variable {s : Swap} {c : Coordinator} {around : Surroundings} {heard : Except Error (Option Message)}

theorem checkReply_text {m : Message} (bad : s.checkReply m = .error e) : e.text ≠ "" := by
  unfold checkReply at bad
  cases decoded : m.decodePayload Reply.decode with
  | error why =>
    simp only [decoded, bind, Except.bind, Except.error.injEq] at bad
    exact bad ▸ Message.decodePayload_text decoded
  | ok r =>
    by_cases good : r.isOk = true
    · simp [decoded, bind, Except.bind, good, pure, Except.pure] at bad
    · simp only [decoded, bind, Except.bind, good, throw, throwThe, MonadExceptOf.throw] at bad
      cases bad
      exact Error.communication_text _

theorem verdict_text (worded : ∀ e, heard = .error e → e.text ≠ "") (bad : s.verdict heard = .error e) :
    e.text ≠ "" := by
  unfold verdict at bad
  split at bad
  · cases bad
    exact worded _ rfl
  · cases bad
    exact Error.communication_text _
  · exact checkReply_text bad

theorem stops_text (on : OnCourse s) (worded : ∀ e, heard = .error e → e.text ≠ "")
    (why : Stops s c around heard e) : e.text ≠ "" := by
  cases why with
  | gaveUp _ gone => exact Context.check_text gone
  | barred phase status barred => exact (barred_absurd on phase status barred).elim
  | unpaused _ missing => exact Registry.modify_text missing
  | unenrolled _ refused => exact Registry.register_text refused
  | unverified _ bad => exact verdict_text worded bad
  | empty => exact Error.internal_text _
  | unhanded _ _ missing => exact Registry.modify_text missing
  | inactive _ missing => exact Registry.modify_text missing

end Swap
end Handover
