import Mathlib.Tactic
import Mathlib.Data.String.Basic

/-!
The order of strings: compared byte by byte in UTF-8, strings are in the order in which
their characters are.

* `encode_append_lt`: a smaller character has a smaller encoding, at the first byte in which
  the two differ.
* `bytes_lt_iff`: the two orders agree.
-/

namespace Utf8

/-- The bytes of a string. -/
def bytes (s : String) : List UInt8 := s.toByteArray.data.toList

lemma bytes_eq (s : String) : bytes s = s.toList.flatMap String.utf8EncodeChar := by
  rw [bytes, ← String.utf8Encode_toList, List.utf8Encode]
  simp

lemma bytes_inj {s t : String} : bytes s = bytes t ↔ s = t := by
  refine ⟨fun h => String.toByteArray_inj.mp (ByteArray.ext (Array.toList_inj.mp h)), ?_⟩
  rintro rfl
  rfl

lemma encode_ne_nil (c : Char) : String.utf8EncodeChar c ≠ [] := by
  simp only [String.utf8EncodeChar]
  split_ifs <;> exact List.cons_ne_nil _ _

lemma ofNat_lt_ofNat_iff {m n : ℕ} (hm : m < 256) (hn : n < 256) :
    UInt8.ofNat m < UInt8.ofNat n ↔ m < n := by
  rw [UInt8.lt_iff_toNat_lt, UInt8.toNat_ofNat', UInt8.toNat_ofNat', Nat.mod_eq_of_lt hm,
    Nat.mod_eq_of_lt hn]

lemma ofNat_eq_ofNat_iff {m n : ℕ} (hm : m < 256) (hn : n < 256) :
    UInt8.ofNat m = UInt8.ofNat n ↔ m = n := by
  rw [← UInt8.toNat_inj, UInt8.toNat_ofNat', UInt8.toNat_ofNat', Nat.mod_eq_of_lt hm,
    Nat.mod_eq_of_lt hn]

/-- Numbers compare by their digits to the base `64`, the highest first. -/
lemma lt_digits {v w : ℕ} (h : v < w) :
    v / 262144 < w / 262144 ∨ (v / 262144 = w / 262144 ∧ (v / 4096 % 64 < w / 4096 % 64 ∨
      (v / 4096 % 64 = w / 4096 % 64 ∧ (v / 64 % 64 < w / 64 % 64 ∨
        (v / 64 % 64 = w / 64 % 64 ∧ v % 64 < w % 64))))) := by
  omega

/-- **Smaller characters have smaller encodings**, whatever comes behind them. -/
lemma encode_append_lt {c d : Char} (h : c < d) (r r' : List UInt8) :
    String.utf8EncodeChar c ++ r < String.utf8EncodeChar d ++ r' := by
  have hlt : c.val.toNat < d.val.toNat := h
  have hd : d.val.toNat < 1114112 := by
    have hvalid := d.valid
    simp only [UInt32.isValidChar, Nat.isValidChar] at hvalid
    omega
  simp only [String.utf8EncodeChar]
  generalize c.val.toNat = v at *
  generalize d.val.toNat = w at *
  have hdigits := lt_digits hlt
  -- of the highest digit the encoding keeps three bits
  have hv : v / 262144 % 8 = v / 262144 := Nat.mod_eq_of_lt (by omega)
  have hw : w / 262144 % 8 = w / 262144 := Nat.mod_eq_of_lt (by omega)
  rw [hv, hw]
  split_ifs
  all_goals
    simp (disch := omega) only [List.cons_append, List.nil_append, List.cons_lt_cons_iff,
      ofNat_lt_ofNat_iff, ofNat_eq_ofNat_iff]
    omega

/-- **The order of bytes is the order of characters.** -/
theorem bytes_lt_of_lt {s t : String} (h : s < t) : bytes s < bytes t := by
  rw [String.lt_iff_toList_lt] at h
  rw [bytes_eq, bytes_eq]
  generalize s.toList = l at h ⊢
  generalize t.toList = l' at h ⊢
  induction l generalizing l' with
  | nil =>
      cases l' with
      | nil => exact absurd h (List.lt_irrefl _)
      | cons d l' =>
          obtain ⟨b, rest, hb⟩ := List.exists_cons_of_ne_nil (encode_ne_nil d)
          rw [List.flatMap_cons, hb]
          exact List.nil_lt_cons _ _
  | cons c l ih =>
      cases l' with
      | nil => exact absurd h (List.not_lt_nil _)
      | cons d l' =>
          rw [List.flatMap_cons, List.flatMap_cons]
          rcases List.cons_lt_cons_iff.mp h with hcd | ⟨rfl, hrest⟩
          · exact encode_append_lt hcd _ _
          · exact List.append_left_lt (ih _ hrest)

theorem bytes_lt_iff {s t : String} : bytes s < bytes t ↔ s < t := by
  refine ⟨fun h => ?_, bytes_lt_of_lt⟩
  rcases lt_trichotomy s t with hlt | heq | hgt
  · exact hlt
  · rw [heq] at h
    exact absurd h (List.lt_irrefl _)
  · exact absurd (List.lt_trans (bytes_lt_of_lt hgt) h) (List.lt_irrefl _)

end Utf8
