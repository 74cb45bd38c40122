import Mathlib.Tactic
import Mathlib.Data.String.Basic

/-!
Decimal numerals of a fixed width, and why padding makes the dictionary order of
numerals the order of numbers.

* `zeroPad w n`: the numeral of `n`, filled with zeros in front to `w` digits.
* `zeroPad_lt_zeroPad`: below `10^w`, padded numerals compare as the numbers do.
* `append_lt_append_iff`: words that begin with pieces of the same length compare
  piece by piece.
-/

namespace Decimal

/-- The numeral of `n`, filled with zeros in front to `w` digits. -/
def zeroPad (w n : ℕ) : List Char := (Nat.toDigits 10 n).leftpad w '0'

/-- A digit of a numeral. -/
def digit (n : ℕ) : Char := Nat.digitChar (n % 10)

/-- One more digit of width is one more digit behind. -/
lemma zeroPad_succ (w n : ℕ) :
    zeroPad (w + 2) n = zeroPad (w + 1) (n / 10) ++ [digit n] := by
  rcases Nat.lt_or_ge n 10 with h | h
  · have h0 : n / 10 = 0 := by omega
    rw [zeroPad, zeroPad, h0, Nat.toDigits_of_lt_base h, Nat.toDigits_of_lt_base (by omega),
      digit, Nat.mod_eq_of_lt h]
    simp [List.leftpad, List.replicate_succ']
  · have hlen : (Nat.toDigits 10 n).length = (Nat.toDigits 10 (n / 10)).length + 1 := by
      rw [Nat.toDigits_eq_if (by omega), if_neg (by omega), List.length_append]
      rfl
    rw [zeroPad, zeroPad, List.leftpad, List.leftpad, hlen,
      Nat.toDigits_eq_if (n := n) (by omega), if_neg (by omega), digit]
    simp

lemma zeroPad_one {n : ℕ} (h : n < 10) : zeroPad 1 n = [digit n] := by
  rw [zeroPad, Nat.toDigits_of_lt_base h, digit, Nat.mod_eq_of_lt h]
  rfl

/-- Below `10^w` the numeral has exactly `w` digits. -/
lemma length_zeroPad {w n : ℕ} (h : n < 10 ^ (w + 1)) : (zeroPad (w + 1) n).length = w + 1 := by
  induction w generalizing n with
  | zero => rw [zeroPad_one (by simpa using h)]; rfl
  | succ w ih =>
      rw [zeroPad_succ, List.length_append, ih (by rw [pow_succ] at h; omega)]
      rfl

lemma digit_lt_digit {a b : ℕ} (ha : a < 10) (hb : b < 10) (h : a < b) : digit a < digit b := by
  interval_cases b <;> interval_cases a <;> first | omega | decide

/-! ### The dictionary order -/

/-- Words that begin with pieces of the same length compare piece by piece. -/
lemma append_lt_append_iff {α : Type*} [LinearOrder α] {l₁ l₂ r₁ r₂ : List α}
    (h : l₁.length = l₂.length) :
    l₁ ++ r₁ < l₂ ++ r₂ ↔ l₁ < l₂ ∨ (l₁ = l₂ ∧ r₁ < r₂) := by
  induction l₁ generalizing l₂ with
  | nil =>
      have : l₂ = [] := List.length_eq_zero_iff.mp h.symm
      simp [this]
  | cons a l₁ ih =>
      cases l₂ with
      | nil => simp at h
      | cons b l₂ =>
          simp only [List.cons_append, List.cons_lt_cons_iff, List.cons.injEq,
            ih (Nat.succ.inj h)]
          tauto

/-- **Padding keeps the order**: below `10^w` the padded numerals compare as the
numbers do. -/
theorem zeroPad_lt_zeroPad {w a b : ℕ} (hb : b < 10 ^ (w + 1)) (h : a < b) :
    zeroPad (w + 1) a < zeroPad (w + 1) b := by
  induction w generalizing a b with
  | zero =>
      have hb : b < 10 := by simpa using hb
      rw [zeroPad_one (by omega), zeroPad_one hb, List.cons_lt_cons_iff]
      exact Or.inl (digit_lt_digit (by omega) hb h)
  | succ w ih =>
      have hb10 : b / 10 < 10 ^ (w + 1) := by rw [pow_succ] at hb; omega
      have ha10 : a / 10 < 10 ^ (w + 1) := by omega
      rw [zeroPad_succ, zeroPad_succ,
        append_lt_append_iff ((length_zeroPad ha10).trans (length_zeroPad hb10).symm)]
      rcases Nat.lt_or_ge (a / 10) (b / 10) with hlt | hge
      · exact Or.inl (ih hb10 hlt)
      · have heq : a / 10 = b / 10 := by omega
        refine Or.inr ⟨by rw [heq], ?_⟩
        rw [List.cons_lt_cons_iff, digit, digit]
        have := digit_lt_digit (a := a % 10) (b := b % 10) (by omega) (by omega) (by omega)
        simp only [digit, Nat.mod_mod] at this
        exact Or.inl this

/-- A numeral consists of digits. -/
lemma isDigit_of_mem_zeroPad {w n : ℕ} {c : Char} (h : c ∈ zeroPad w n) : c.isDigit := by
  rw [zeroPad, List.leftpad, List.mem_append] at h
  rcases h with h | h
  · rw [(List.mem_replicate.mp h).2]
    decide
  · exact Nat.isDigit_of_mem_toDigits (by omega) (by omega) h

lemma zeroPad_ne_nil (w n : ℕ) : zeroPad w n ≠ [] := by
  simp [zeroPad, List.leftpad, Nat.toDigits_ne_nil]

/-- A word that begins below the digits comes before every word that begins with
a numeral. -/
lemma cons_lt_zeroPad_append {c : Char} (hc : c < '0') (l r : List Char) (w n : ℕ) :
    c :: l < zeroPad w n ++ r := by
  obtain ⟨d, t, hd⟩ := List.exists_cons_of_ne_nil (zeroPad_ne_nil w n)
  have hdigit : d.isDigit := isDigit_of_mem_zeroPad (w := w) (n := n) (by simp [hd])
  have h0 : '0' ≤ d := by
    simp only [Char.isDigit, Bool.and_eq_true, decide_eq_true_eq] at hdigit
    exact hdigit.1
  rw [hd, List.cons_append, List.cons_lt_cons_iff]
  exact Or.inl (lt_of_lt_of_le hc h0)

/-! ### More digits than the width -/

/-- The first digit of a positive number is not zero. -/
lemma exists_toDigits_eq_cons (n : ℕ) (h : 0 < n) :
    ∃ d t, Nat.toDigits 10 n = d :: t ∧ '0' < d := by
  induction n using Nat.strong_induction_on with
  | _ n ih =>
      rw [Nat.toDigits_eq_if (by omega)]
      split_ifs with h10
      · exact ⟨_, [], rfl, digit_lt_digit (a := 0) (by omega) h10 h |>.trans_eq
          (by rw [digit, Nat.mod_eq_of_lt h10])⟩
      · obtain ⟨d, t, hd, hlt⟩ := ih (n / 10) (by omega) (by omega)
        exact ⟨d, t ++ [Nat.digitChar (n % 10)], by rw [hd]; rfl, hlt⟩

/-- A number that fills its width does not begin with a zero. -/
lemma exists_zeroPad_eq_cons {w n : ℕ} (h : 10 ^ w ≤ n) :
    ∃ d t, zeroPad (w + 1) n = d :: t ∧ '0' < d := by
  induction w generalizing n with
  | zero =>
      obtain ⟨d, t, hd, hlt⟩ := exists_toDigits_eq_cons n (by omega)
      refine ⟨d, t, ?_, hlt⟩
      rw [zeroPad, List.leftpad, hd]
      simp
  | succ w ih =>
      obtain ⟨d, t, hd, hlt⟩ := ih (n := n / 10) (by rw [pow_succ] at h; omega)
      exact ⟨d, t ++ [digit n], by rw [zeroPad_succ, hd]; rfl, hlt⟩

end Decimal
