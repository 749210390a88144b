import Handover.Agent.State
import Mathlib.Algebra.BigOperators.Group.List.Basic
import Mathlib.Data.Rat.Cast.Defs
import Mathlib.Tactic.Linarith
import Mathlib.Tactic.NormNum

/-!
# The counters of an agent

An agent counts each task that it finishes, in whatever numbers it keeps its average: `finishAll_counts`. It takes the
latency of the task into that average. In exact arithmetic this is the average over all its tasks, in whatever order they
were finished: `counters_stay_consistent`.
-/

namespace Handover

/-- Rational numbers, of which a division by zero makes nothing. -/
def Exact : Type := Option ℚ

namespace Exact

def of (q : ℚ) : Exact := some q

def both (f : ℚ → ℚ → Exact) (x y : Exact) : Exact := Option.bind x fun q => Option.bind y (f q)

instance : Add Exact := ⟨both fun q r => of (q + r)⟩
instance : Mul Exact := ⟨both fun q r => of (q * r)⟩
instance : Div Exact := ⟨both fun q r => if r = 0 then none else of (q / r)⟩
instance : IntCast Exact := ⟨fun i => of i⟩

variable {q r : ℚ}

@[simp]
theorem of_add (q r : ℚ) : of q + of r = of (q + r) := rfl

@[simp]
theorem of_mul (q r : ℚ) : of q * of r = of (q * r) := rfl

theorem of_div (q : ℚ) (divisor : r ≠ 0) : of q / of r = of (q / r) := if_neg divisor

theorem cast_eq (i : Int) : (i : Exact) = of i := rfl

end Exact

/-- A task that an agent has finished. -/
structure Finish (R : Type) where
  succeeded : Bool
  latency : R
  now : Instant

def Finish.exactly (f : Finish ℚ) : Finish Exact := ⟨f.succeeded, .of f.latency, f.now⟩

namespace Metrics

/-! ## Counters -/

section Counters
variable {R : Type} [Add R] [Mul R] [Div R] [IntCast R]

def finish (m : Metrics R) (f : Finish R) : Metrics R :=
  if f.succeeded then m.recordSuccess f.latency f.now else m.recordFailure f.latency f.now

def finishAll (m : Metrics R) (fs : List (Finish R)) : Metrics R := fs.foldl finish m

theorem finish_total (m : Metrics R) (f : Finish R) : (m.finish f).total = m.total + 1 := by
  unfold finish
  split <;> rfl

theorem finish_successful (m : Metrics R) (f : Finish R) :
    (m.finish f).successful = m.successful + if f.succeeded then 1 else 0 := by
  unfold finish
  split
  · rfl
  · exact (Int.add_zero _).symm

theorem finish_failed (m : Metrics R) (f : Finish R) :
    (m.finish f).failed = m.failed + if f.succeeded then 0 else 1 := by
  unfold finish
  split
  · exact (Int.add_zero _).symm
  · rfl

/-- Every task is counted once, as what it was, whatever becomes of the average. -/
theorem finishAll_counts (m : Metrics R) (fs : List (Finish R)) :
    (m.finishAll fs).total = m.total + fs.length ∧
      (m.finishAll fs).successful = m.successful + fs.countP (·.succeeded) ∧
      (m.finishAll fs).total - (m.finishAll fs).successful - (m.finishAll fs).failed =
        m.total - m.successful - m.failed := by
  induction fs generalizing m with
  | nil => simp [finishAll]
  | cons f rest ih =>
    obtain ⟨total, successful, others⟩ := ih (m.finish f)
    rw [finish_total] at total others
    rw [finish_successful] at successful others
    rw [finish_failed] at others
    rw [finishAll, List.foldl_cons]
    refine ⟨total.trans ?_, successful.trans ?_, others.trans ?_⟩
    · rw [List.length_cons]
      omega
    · rw [List.countP_cons]
      split <;> omega
    · split <;> omega

end Counters

example (m : Metrics) (fs : List (Finish Double)) : (m.finishAll fs).total = m.total + fs.length :=
  (finishAll_counts m fs).1

/-! ## The average -/

variable {m : Metrics Exact} {fs gs : List (Finish ℚ)} {average : ℚ}

/-- The counters of an agent that has finished nothing. -/
def blank : Metrics Exact := { avgLatencyMs := .of 0 }

theorem finishAll_exactly (m : Metrics Exact) (fs : List (Finish ℚ)) :
    (m.finishAll (fs.map .exactly)).total = m.total + fs.length ∧
      (m.finishAll (fs.map .exactly)).successful = m.successful + fs.countP (·.succeeded) ∧
      (m.finishAll (fs.map .exactly)).total - (m.finishAll (fs.map .exactly)).successful -
        (m.finishAll (fs.map .exactly)).failed = m.total - m.successful - m.failed := by
  obtain ⟨total, successful, others⟩ := finishAll_counts m (fs.map .exactly)
  rw [List.length_map] at total
  rw [List.countP_map] at successful
  exact ⟨total, successful, others⟩

theorem weight_ne_zero (counted : 0 ≤ m.total) : (m.total : ℚ) + 1 ≠ 0 := by
  have before : (0 : ℚ) ≤ m.total := Int.cast_nonneg counted
  linarith

/-- The new average weighs the old one with the tasks that were counted before. -/
theorem finish_average (counted : 0 ≤ m.total) (before : m.avgLatencyMs = .of average) (f : Finish ℚ) :
    (m.finish f.exactly).avgLatencyMs = .of ((average * m.total + f.latency) / (m.total + 1)) := by
  have divisor := weight_ne_zero counted
  have recorded : (m.finish f.exactly).avgLatencyMs =
      (m.avgLatencyMs * (m.total : Exact) + .of f.latency) / ((m.total : Exact) + ((1 : Int) : Exact)) := by
    unfold finish
    split <;> rfl
  rw [recorded, before, Exact.cast_eq, Exact.cast_eq, Int.cast_one, Exact.of_mul, Exact.of_add, Exact.of_add,
    Exact.of_div _ divisor]

/-- What the average stands for: the sum of all latencies. -/
theorem finishAll_average (counted : 0 ≤ m.total) (before : m.avgLatencyMs = .of average) (fs : List (Finish ℚ)) :
    ∃ after, (m.finishAll (fs.map .exactly)).avgLatencyMs = .of after ∧
      after * (m.total + fs.length) = m.total * average + (fs.map (·.latency)).sum := by
  induction fs generalizing m average with
  | nil => exact ⟨average, before, by simp [mul_comm]⟩
  | cons f rest ih =>
    have counted' : 0 ≤ (m.finish f.exactly).total := by
      rw [finish_total]
      omega
    have divisor := weight_ne_zero counted
    obtain ⟨after, shown, sum⟩ := ih counted' (finish_average counted before f)
    refine ⟨after, shown, ?_⟩
    rw [finish_total, Int.cast_add, Int.cast_one, mul_div_cancel₀ _ divisor] at sum
    rw [List.map_cons, List.sum_cons, List.length_cons, Nat.cast_add, Nat.cast_one]
    linarith

theorem finishAll_average_eq (counted : 0 ≤ m.total) (before : m.avgLatencyMs = .of average)
    (some : 0 < m.total + fs.length) :
    (m.finishAll (fs.map .exactly)).avgLatencyMs =
      .of ((m.total * average + (fs.map (·.latency)).sum) / (m.total + fs.length)) := by
  obtain ⟨after, shown, sum⟩ := finishAll_average counted before fs
  have divisor : (m.total : ℚ) + fs.length ≠ 0 := by exact_mod_cast ne_of_gt some
  rw [shown, ← sum, mul_div_cancel_right₀ _ divisor]

theorem finishAll_average_perm (counted : 0 ≤ m.total) (before : m.avgLatencyMs = .of average) (same : gs.Perm fs) :
    (m.finishAll (gs.map .exactly)).avgLatencyMs = (m.finishAll (fs.map .exactly)).avgLatencyMs := by
  cases fs with
  | nil => rw [same.eq_nil]
  | cons f rest =>
    have some : 0 < m.total + (f :: rest).length := by
      rw [List.length_cons]
      omega
    rw [finishAll_average_eq counted before some, finishAll_average_eq counted before (same.length_eq ▸ some),
      (same.map _).sum_eq, same.length_eq]

theorem successRate_of (m : Metrics Exact) :
    m.successRate = .of (if m.total = 0 then 0 else (m.successful : ℚ) / m.total) := by
  unfold successRate
  split
  · exact congrArg Exact.of Int.cast_zero
  · rename_i counted
    exact Exact.of_div _ (Int.cast_ne_zero.mpr counted)

theorem blank_successRate (fs : List (Finish ℚ)) :
    (blank.finishAll (fs.map .exactly)).successRate =
      .of (if fs = [] then 0 else (fs.countP (·.succeeded) : ℚ) / fs.length) := by
  obtain ⟨total, successful, _⟩ := finishAll_exactly blank fs
  have total : (blank.finishAll (fs.map .exactly)).total = fs.length := total.trans (Int.zero_add _)
  have successful : (blank.finishAll (fs.map .exactly)).successful = fs.countP (·.succeeded) :=
    successful.trans (Int.zero_add _)
  rw [successRate_of, total, successful]
  simp

theorem share_bounds (fs : List (Finish ℚ)) :
    (0 : ℚ) ≤ (fs.countP (·.succeeded) : ℚ) / fs.length ∧ (fs.countP (·.succeeded) : ℚ) / fs.length ≤ 1 := by
  have part : (fs.countP (·.succeeded) : ℚ) ≤ fs.length := Nat.cast_le.mpr List.countP_le_length
  exact ⟨div_nonneg (Nat.cast_nonneg _) (Nat.cast_nonneg _), div_le_one_of_le₀ part (Nat.cast_nonneg _)⟩

/-- Whatever an agent has counted before, the tasks that it finishes are counted once each, as what they were, its
average becomes that over all tasks, however they are ordered, and nothing is divided by zero. An agent that began with
none shows the share of those that succeeded. -/
theorem counters_stay_consistent (counted : 0 ≤ m.total) (before : m.avgLatencyMs = .of average)
    (fs : List (Finish ℚ)) :
    let t := m.finishAll (fs.map .exactly)
    t.total = m.total + fs.length ∧
    t.total - t.successful - t.failed = m.total - m.successful - m.failed ∧
    t.successful = m.successful + fs.countP (·.succeeded) ∧
    (0 < m.total + fs.length →
      t.avgLatencyMs = .of ((m.total * average + (fs.map (·.latency)).sum) / (m.total + fs.length))) ∧
    (∀ gs : List (Finish ℚ), gs.Perm fs → (m.finishAll (gs.map .exactly)).avgLatencyMs = t.avgLatencyMs) ∧
    (∃ after, t.avgLatencyMs = .of after) ∧ (∃ rate, t.successRate = .of rate) ∧
    ∃ share, (blank.finishAll (fs.map .exactly)).successRate = .of share ∧
      share = (if fs = [] then 0 else (fs.countP (·.succeeded) : ℚ) / fs.length) ∧ 0 ≤ share ∧ share ≤ 1 := by
  intro t
  obtain ⟨total, successful, others⟩ := finishAll_exactly m fs
  obtain ⟨after, shown, _⟩ := finishAll_average counted before fs
  refine ⟨total, others, successful, finishAll_average_eq counted before,
    fun gs same => finishAll_average_perm counted before same, ⟨after, shown⟩, ⟨_, successRate_of t⟩,
    _, blank_successRate fs, rfl, ?_⟩
  split
  · exact ⟨le_refl 0, zero_le_one⟩
  · exact share_bounds fs

end Metrics

namespace Sample

def seasoned : Metrics Exact := { total := 10, successful := 8, failed := 2, avgLatencyMs := .of (25 / 2) }

def finished : List (Finish ℚ) := [⟨true, 10, ⟨1, 0⟩⟩, ⟨false, 20, ⟨2, 0⟩⟩]

end Sample

namespace Metrics

theorem counters_stay_consistent_of_seasoned :
    0 ≤ Sample.seasoned.total ∧ Sample.seasoned.avgLatencyMs = .of (25 / 2) ∧
      (Sample.seasoned.finishAll (Sample.finished.map .exactly)).successful = 9 ∧
      (Sample.seasoned.finishAll (Sample.finished.map .exactly)).avgLatencyMs = .of (155 / 12) ∧
      (Sample.seasoned.finishAll (Sample.finished.reverse.map .exactly)).avgLatencyMs = .of (155 / 12) := by
  have counted : 0 ≤ Sample.seasoned.total := by decide
  obtain ⟨_, _, successful, weighed, ordered, _⟩ := counters_stay_consistent counted rfl Sample.finished
  have average : (Sample.seasoned.finishAll (Sample.finished.map .exactly)).avgLatencyMs = .of (155 / 12) := by
    refine (weighed (by decide)).trans (congrArg Exact.of ?_)
    norm_num [Sample.seasoned, Sample.finished]
  exact ⟨counted, rfl, successful, average, (ordered _ (List.reverse_perm _)).trans average⟩

end Metrics
end Handover
