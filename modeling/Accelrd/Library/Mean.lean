import Mathlib.Tactic

/-!
Means of lists, and rounding at the wrong scale.

* `mean_map_div`, `mean_nonneg`, `mean_lt`, `mean_perm`: a mean follows its values.
* `round_div_eq_round_iff`: where a number and a fraction of it round to the same.
-/

namespace Mean

variable {K : Type} [Field K]

/-- The mean of a list, zero if there is nothing in it. -/
def mean (l : List K) : K := l.sum / l.length

lemma mean_map_div (l : List K) (c : K) : mean (l.map (· / c)) = mean l / c := by
  have hsum : (l.map (· / c)).sum = l.sum / c := by
    simp only [div_eq_mul_inv, List.sum_map_mul_right, List.map_id']
  rw [mean, hsum, List.length_map, mean, div_right_comm]

/-- The order of the values does not matter. -/
lemma mean_perm {l l' : List K} (h : l.Perm l') : mean l = mean l' := by
  rw [mean, h.sum_eq, h.length_eq, mean]

variable [LinearOrder K] [IsStrictOrderedRing K]

lemma mean_nonneg {l : List K} (h : ∀ x ∈ l, 0 ≤ x) : 0 ≤ mean l :=
  div_nonneg (List.sum_nonneg h) (Nat.cast_nonneg _)

/-- A mean stays below a bound of all values. -/
lemma mean_lt {l : List K} (hne : l ≠ []) {b : K} (h : ∀ x ∈ l, x < b) : mean l < b := by
  have hsum : l.sum < (l.map fun _ => b).sum := by
    simpa using List.sum_lt_sum_of_ne_nil hne id (fun _ => b) h
  have hpos : (0 : K) < l.length := by exact_mod_cast List.length_pos_iff.mpr hne
  rw [mean, div_lt_iff₀ hpos]
  calc l.sum < (l.map fun _ => b).sum := hsum
    _ = b * l.length := by rw [List.map_const', List.sum_replicate, nsmul_eq_mul, mul_comm]

variable [FloorRing K]

/-- **The wrong scale shows**: a number and its `k`-th part round to the same only where
both round to zero. -/
theorem round_div_eq_round_iff {k x : K} (hk : 3 ≤ k) (hx : 0 ≤ x) :
    round (x / k) = round x ↔ x < 1 / 2 := by
  have hpos : 0 < k := by linarith
  have hle : x / k ≤ x := div_le_self hx (by linarith)
  constructor
  · intro hround
    by_contra hge
    rw [round_eq, round_eq] at hround
    -- what `x` rounds to is at least one, and the `k`-th part would have to reach it
    have hone : 1 ≤ ⌊x + 1 / 2⌋ := Int.le_floor.mpr (by push_cast; linarith)
    have hlower : (⌊x + 1 / 2⌋ : K) ≤ x / k + 1 / 2 := Int.le_floor.mp hround.ge
    have hupper : x + 1 / 2 < ⌊x + 1 / 2⌋ + 1 := Int.lt_floor_add_one _
    have hn : (1 : K) ≤ ⌊x + 1 / 2⌋ := by exact_mod_cast hone
    have hscaled : (⌊x + 1 / 2⌋ - 1 / 2 : K) * k ≤ x := (le_div_iff₀ hpos).mp (by linarith)
    have hthree : (⌊x + 1 / 2⌋ - 1 / 2 : K) * 3 ≤ (⌊x + 1 / 2⌋ - 1 / 2 : K) * k :=
      mul_le_mul_of_nonneg_left hk (by linarith)
    linarith
  · intro hlt
    have hzero (y : K) (hy : 0 ≤ y) (hy' : y < 1 / 2) : round y = 0 := by
      rw [round_eq, Int.floor_eq_zero_iff]
      constructor <;> linarith
    rw [hzero x hx hlt, hzero _ (div_nonneg hx hpos.le) (hle.trans_lt hlt)]

end Mean
