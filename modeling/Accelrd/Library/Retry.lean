import Mathlib.Tactic
import Mathlib.Algebra.BigOperators.Group.Finset.Basic
import Mathlib.Order.ConditionallyCompleteLattice.Finset

/-!
Retrying under a deadline: an attempt is repeated while it asks for it and the deadline has
not passed, after a pause of its backoff or what is left of the time.

* `min_le_now`: the clock has advanced by the backoffs, or the deadline has passed.
* `exists_stop`: hence the attempts end; `le_of_continues` bounds their number.
* `sum_pause_le`: the pauses stay within the time that was given.
-/

namespace Retry

/-- Attempts, numbered from zero: whether they ask for another one, when they end, and the
backoff after each. -/
structure Attempts where
  again : ℕ → Prop
  now : ℕ → ℕ
  backoff : ℕ → ℕ
  deadline : ℕ

namespace Attempts

variable (r : Attempts)

/-- The pause after an attempt. -/
def pause (i : ℕ) : ℕ := min (r.backoff i) (r.deadline - r.now i)

/-- An attempt is followed by another one. -/
def Continues (i : ℕ) : Prop := r.again i ∧ r.now i < r.deadline

/-- The sum of the first backoffs. -/
def total (k : ℕ) : ℕ := ∑ i ∈ Finset.range k, r.backoff i

/-- A clock that begins at `start`, does not go back, and advances in a pause by its length at
least. -/
structure Timed (start : ℕ) : Prop where
  first : start ≤ r.now 0
  next : ∀ i, r.Continues i → r.now i + r.pause i ≤ r.now (i + 1)

variable {r} {start : ℕ}

lemma total_succ (k : ℕ) : r.total (k + 1) = r.total k + r.backoff k :=
  Finset.sum_range_succ _ _

/-- **The clock advances**: a pause is shorter than its backoff only if it ends at the
deadline. -/
lemma Timed.min_le_now (h : r.Timed start) {k : ℕ} (hk : ∀ i < k, r.Continues i) :
    min (start + r.total k) r.deadline ≤ r.now k := by
  induction k with
  | zero => exact (min_le_left _ _).trans h.first
  | succ k ih =>
      have hprev := ih fun i hi => hk i (by omega)
      have hcont := hk k (by omega)
      have hnext := h.next k hcont
      have hlt := hcont.2
      rw [total_succ]
      rw [pause] at hnext
      omega

/-- An attempt that is followed by another one came early. -/
lemma Timed.total_lt (h : r.Timed start) {k : ℕ} (hk : ∀ i < k + 1, r.Continues i) :
    start + r.total k < r.deadline := by
  have hnow := h.min_le_now (k := k) fun i hi => hk i (by omega)
  have hlt := (hk k (by omega)).2
  omega

lemma le_total (hpos : ∀ i, 0 < r.backoff i) (k : ℕ) : k ≤ r.total k := by
  induction k with
  | zero => exact Nat.zero_le _
  | succ k ih =>
      have := hpos k
      rw [total_succ]
      omega

/-- **The attempts end.** -/
theorem Timed.exists_stop (h : r.Timed start) (hpos : ∀ i, 0 < r.backoff i) :
    ∃ i, ¬ r.Continues i := by
  by_contra hall
  push Not at hall
  have hlt := h.total_lt (k := r.deadline) fun i _ => hall i
  have hle := le_total hpos r.deadline
  omega

/-- **How many attempts there are**: two more than there are backoffs within the time. -/
theorem Timed.le_of_continues (h : r.Timed start) (hpos : ∀ i, 0 < r.backoff i) {k : ℕ}
    (hk : ∀ i < k, r.Continues i) :
    k ≤ 1 + sSup {j | r.total j < r.deadline - start} := by
  cases k with
  | zero => exact Nat.zero_le _
  | succ k =>
      have hlt := h.total_lt hk
      have hbdd : BddAbove {j | r.total j < r.deadline - start} :=
        ⟨r.deadline - start, fun j hj => (le_total hpos j).trans (Nat.le_of_lt hj)⟩
      have hmem : k ≤ sSup {j | r.total j < r.deadline - start} :=
        le_csSup hbdd (show r.total k < r.deadline - start by omega)
      omega

/-- **The pauses fit into the time.** -/
theorem Timed.sum_pause_le (h : r.Timed start) {k : ℕ} (hk : ∀ i < k, r.Continues i) :
    ∑ i ∈ Finset.range k, r.pause i ≤ r.deadline - start := by
  have hnow : ∀ k, (∀ i < k, r.Continues i) →
      start + ∑ i ∈ Finset.range k, r.pause i ≤ r.now k := by
    intro k
    induction k with
    | zero =>
        intro _
        exact h.first
    | succ k ih =>
        intro hk
        have hprev := ih fun i hi => hk i (by omega)
        have hnext := h.next k (hk k (by omega))
        rw [Finset.sum_range_succ]
        omega
  cases k with
  | zero => exact Nat.zero_le _
  | succ k =>
      have hprev := hnow k fun i hi => hk i (by omega)
      have hlt := (hk k (by omega)).2
      rw [Finset.sum_range_succ, pause]
      omega

/-- A pause that lasts exactly as long ends at the deadline at the latest. -/
lemma add_pause_le {i : ℕ} (h : r.Continues i) : r.now i + r.pause i ≤ r.deadline := by
  have hlt := h.2
  rw [pause]
  omega

end Attempts

end Retry
