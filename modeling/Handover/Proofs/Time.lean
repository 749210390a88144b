import Handover.Time.Timestamp

/-!
# Instants and the time between them

Instants are ordered by their seconds and then by their nanoseconds. Away from leap seconds the time since an instant is
the longer the earlier that is, and none between two instants that can be written is too long to be counted.
-/

namespace Handover
namespace Instant
variable {a b c now t : Instant}

theorem before_iff : a.before b = true ↔ a.second < b.second ∨ a.second = b.second ∧ a.nanos < b.nanos := by
  simp [before]

theorem not_before_iff : a.before b = false ↔ b.second < a.second ∨ b.second = a.second ∧ b.nanos ≤ a.nanos := by
  rw [Bool.eq_false_iff, ne_eq, before_iff]
  omega

theorem eq_of_not_before (not : a.before b = false) (nor : b.before a = false) : a = b := by
  rw [not_before_iff] at not nor
  obtain ⟨second, nanos⟩ : a.second = b.second ∧ a.nanos = b.nanos := by omega
  cases a
  cases b
  exact congr (congrArg Instant.mk second) nanos

theorem before_trans (first : a.before b = true) (second : b.before c = true) : a.before c = true := by
  rw [before_iff] at *
  omega

theorem not_before_of_before (before : a.before b = true) : b.before a = false := by
  rw [not_before_iff]
  rw [before_iff] at before
  omega

theorem not_before_self (a : Instant) : a.before a = false := by
  rw [not_before_iff]
  omega

theorem before_tick (t : Instant) : t.before t.tick = true := by
  rw [before_iff, tick]
  split
  · exact .inl (by show t.second < t.second + 1; omega)
  · exact .inr ⟨rfl, Nat.lt_succ_self _⟩

theorem later_not_before (a b : Instant) : (a.later b).before a = false ∧ (a.later b).before b = false := by
  unfold later
  split
  · rename_i before
    exact ⟨not_before_of_before before, not_before_self b⟩
  · rename_i not
    exact ⟨not_before_self a, Bool.eq_false_iff.mpr not⟩

/-- Behind the next tick of an instant is behind the instant. -/
theorem before_later_tick (now t : Instant) : t.before (now.later t.tick) = true := by
  have tick := before_tick t
  have after := (later_not_before now t.tick).2
  rw [not_before_iff] at after
  rw [before_iff] at *
  omega

/-! ## Clocks -/

/-- The instant is not in a leap second. -/
def Plain (t : Instant) : Prop := t.nanos < billion

/-- The date can be written. -/
structure Representable (t : Instant) : Prop where
  first : Calendar.daysOfDate Calendar.firstYear 1 1 * daySeconds ≤ t.second
  last : t.second < (Calendar.daysOfDate Calendar.lastYear 12 31 + 1) * daySeconds
  nanos : t.nanos < 2 * billion

theorem Representable.bounds (r : t.Representable) :
    -8334601228800 ≤ t.second ∧ t.second < 8210266876800 ∧ t.nanos < 2000000000 := by
  have first : Calendar.daysOfDate Calendar.firstYear 1 1 * daySeconds = -8334601228800 := by decide
  have last : (Calendar.daysOfDate Calendar.lastYear 12 31 + 1) * daySeconds = 8210266876800 := by decide
  exact ⟨first ▸ r.first, last ▸ r.last, r.nanos⟩

theorem later_plain (first : a.Plain) (second : b.Plain) : (a.later b).Plain := by
  unfold later
  split
  · exact second
  · exact first

theorem tick_plain (plain : t.Plain) : t.tick.Plain := by
  unfold Plain billion at plain
  unfold tick Plain billion
  split
  · exact Nat.zero_lt_succ _
  · show t.nanos + 1 < 1000000000
    omega

theorem nanosBetween_plain (first : a.Plain) (second : b.Plain) :
    nanosBetween a b = (b.second - a.second) * billion + ((b.nanos : Int) - a.nanos) := by
  have noLeap : ¬ billion ≤ a.nanos := Nat.not_le_of_lt first
  have noLeap' : ¬ billion ≤ b.nanos := Nat.not_le_of_lt second
  simp [nanosBetween, noLeap, noLeap']

/-- Less time has passed since the later of two instants. -/
theorem nanosBetween_le (after : b.before a = false) (first : a.Plain) (second : b.Plain) (present : now.Plain) :
    nanosBetween b now ≤ nanosBetween a now := by
  rw [nanosBetween_plain first present, nanosBetween_plain second present]
  rw [not_before_iff] at after
  unfold Plain billion at *
  omega

theorem nanosBetween_bounded (first : a.Representable) (second : b.Representable) :
    nanosBetween a b < 9223372036854775807000000 := by
  have early := first.bounds
  have late := second.bounds
  unfold nanosBetween billion
  dsimp only
  split
  · omega
  · split <;> omega

end Instant
end Handover
