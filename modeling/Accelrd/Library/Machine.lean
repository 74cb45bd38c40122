import Mathlib.Tactic

/-!
Machine integers as integers that lie in a range: an operation yields its exact result if
that is in range, and nothing otherwise.
-/

namespace Machine

/-- A result of a signed operation on `w` bits. -/
@[irreducible] def signed (w : ℕ) (n : ℤ) : Option ℤ :=
  if -2 ^ (w - 1) ≤ n ∧ n < 2 ^ (w - 1) then some n else none

/-- A result of an unsigned operation on `w` bits. -/
@[irreducible] def unsigned (w : ℕ) (n : ℤ) : Option ℕ :=
  if 0 ≤ n ∧ n < 2 ^ w then some n.toNat else none

variable {w : ℕ} {n : ℤ}

lemma signed_of_mem (hlo : -2 ^ (w - 1) ≤ n) (hhi : n < 2 ^ (w - 1)) : signed w n = some n := by
  rw [signed, if_pos ⟨hlo, hhi⟩]

lemma isSome_signed_iff : (signed w n).isSome ↔ -2 ^ (w - 1) ≤ n ∧ n < 2 ^ (w - 1) := by
  rw [signed]
  split_ifs with h <;> simp [h]

lemma unsigned_of_eq {k : ℕ} (hk : k < 2 ^ w) (h : n = k) : unsigned w n = some k := by
  subst h
  rw [unsigned, if_pos ⟨Int.natCast_nonneg k, by exact_mod_cast hk⟩, Int.toNat_natCast]

lemma unsigned_eq_some_iff {k : ℕ} : unsigned w n = some k ↔ n = k ∧ k < 2 ^ w := by
  constructor
  · intro h
    rw [unsigned] at h
    split_ifs at h with hn
    obtain rfl := Option.some.inj h
    have hcast : ((n.toNat : ℕ) : ℤ) = n := Int.toNat_of_nonneg hn.1
    exact ⟨hcast.symm, by exact_mod_cast hcast.symm ▸ hn.2⟩
  · rintro ⟨h, hk⟩
    exact unsigned_of_eq hk h

/-- A checked operation and what follows it. -/
lemma bind_of_eq {α β : Type} {o : Option α} {a : α} {f : α → Option β} {b : β}
    (h : o = some a) (hf : f a = some b) : (o >>= f) = some b := by
  rw [h]
  exact hf

end Machine
