import Accelrd.Library.Boundary
import Accelrd.Library.Json

/-!
The bytes of the compact notation of JSON: what is not the content of a string is ASCII, so
only a character of a string can lie across a byte offset.

* `Cut`: a character of a string that is printed from an offset on lies across another.
* `straddles_quote_append`, `straddles_ascii_append`: how a text is read from its front.
-/

namespace Json

open Utf8

/-- The content of a string as it is printed. -/
def escape (s : String) : List Char := s.toList.flatMap escapeChar

/-- A character of the string, printed from the offset `o` on, begins before the offset `n`
and ends after it. -/
def Cut (n o : ℕ) (s : String) : Prop :=
  ∃ p c r, s.toList = p ++ c :: r ∧ o + size (p.flatMap escapeChar) < n ∧
    n < o + size (p.flatMap escapeChar) + c.utf8Size

lemma utf8Size_eq_one {c : Char} (h : c.toNat < 128) : c.utf8Size = 1 :=
  Char.utf8Size_eq_one_iff.mpr (UInt32.le_iff_toNat_le.mpr (Nat.le_of_lt_succ h))

lemma utf8Size_hexDigit {n : ℕ} (h : n < 16) : (hexDigit n).utf8Size = 1 := by
  interval_cases n <;> decide

/-- A character is escaped by ASCII characters, and only if it is one. -/
lemma escapeChar_eq (c : Char) :
    escapeChar c = [c] ∨ (c.utf8Size = 1 ∧ IsAscii (escapeChar c)) := by
  unfold escapeChar
  split_ifs with hquote hback h8 h9 h10 h12 h13 hcontrol
  · exact Or.inr ⟨by rw [hquote]; decide, by decide⟩
  · exact Or.inr ⟨by rw [hback]; decide, by decide⟩
  · exact Or.inr ⟨utf8Size_eq_one (by omega), by decide⟩
  · exact Or.inr ⟨utf8Size_eq_one (by omega), by decide⟩
  · exact Or.inr ⟨utf8Size_eq_one (by omega), by decide⟩
  · exact Or.inr ⟨utf8Size_eq_one (by omega), by decide⟩
  · exact Or.inr ⟨utf8Size_eq_one (by omega), by decide⟩
  · refine Or.inr ⟨utf8Size_eq_one (by omega), ?_⟩
    have hmark : IsAscii ['\\', 'u', '0', '0'] := by decide
    refine hmark.append (b := [_, _]) ?_
    intro d hd
    rcases List.mem_pair.mp hd with rfl | rfl
    · exact utf8Size_hexDigit (by omega)
    · exact utf8Size_hexDigit (by omega)
  · exact Or.inl rfl

lemma straddles_escapeChar (n : ℕ) (c : Char) :
    Straddles n (escapeChar c) ↔ 0 < n ∧ n < c.utf8Size := by
  rcases escapeChar_eq c with heq | ⟨hsize, hascii⟩
  · rw [heq, straddles_cons]
    exact ⟨fun h => h.resolve_right (not_straddles_nil _), Or.inl⟩
  · rw [hsize]
    exact iff_of_false (hascii.not_straddles n) (by omega)

lemma straddles_flatMap_escapeChar (n : ℕ) (cs : List Char) :
    Straddles n (cs.flatMap escapeChar) ↔ ∃ p c r, cs = p ++ c :: r ∧
      size (p.flatMap escapeChar) < n ∧ n < size (p.flatMap escapeChar) + c.utf8Size := by
  induction cs generalizing n with
  | nil =>
      refine iff_of_false (not_straddles_nil n) ?_
      rintro ⟨p, c, r, heq, -⟩
      exact absurd heq.symm (List.append_ne_nil_of_right_ne_nil p (List.cons_ne_nil c r))
  | cons c cs ih =>
      rw [List.flatMap_cons, straddles_append, straddles_escapeChar, ih, exists_split_cons,
        List.flatMap_nil, size_nil, Nat.zero_add]
      refine or_congr_right (exists₃_congr fun p d r => and_congr_right fun _ => ?_)
      rw [List.flatMap_cons, size_append]
      omega

lemma straddles_escape (n o : ℕ) (s : String) : Straddles (n - o) (escape s) ↔ Cut n o s := by
  rw [escape, straddles_flatMap_escapeChar]
  constructor
  · rintro ⟨p, c, r, heq, hbegin, hend⟩
    exact ⟨p, c, r, heq, by omega, by omega⟩
  · rintro ⟨p, c, r, heq, hbegin, hend⟩
    exact ⟨p, c, r, heq, by omega, by omega⟩

lemma not_cut_of_isAscii {s : String} (hs : IsAscii s.toList) (n o : ℕ) : ¬ Cut n o s := by
  rintro ⟨p, c, r, heq, hbegin, hend⟩
  rw [hs c (by rw [heq]; exact List.mem_append_right p List.mem_cons_self)] at hend
  omega

/-- A string from its front. -/
lemma straddles_quote_append (n o : ℕ) (s : String) (cs : List Char) :
    Straddles (n - o) (quote s ++ cs) ↔
      Cut n (o + 1) s ∨ Straddles (n - (o + size (escape s) + 2)) cs := by
  have hquote : quote s ++ cs = ['"'] ++ (escape s ++ (['"'] ++ cs)) := by
    rw [quote, escape, List.cons_append, List.append_assoc]
    rfl
  have hascii : IsAscii ['"'] := by decide
  have hend : n - o - size ['"'] - size (escape s) - size ['"'] =
      n - (o + size (escape s) + 2) := by
    rw [show size ['"'] = 1 by decide]
    omega
  rw [hquote, hascii.straddles_append, straddles_append, hascii.straddles_append, hend,
    Nat.sub_sub, show size ['"'] = 1 by decide, straddles_escape]

lemma straddles_ascii_append {a : List Char} (ha : IsAscii a) (n o : ℕ) (cs : List Char) :
    Straddles (n - o) (a ++ cs) ↔ Straddles (n - (o + size a)) cs := by
  rw [ha.straddles_append, Nat.sub_sub]

/-- Past the offset no character lies across it. -/
lemma not_straddles_of_le {n o : ℕ} (h : n ≤ o) (cs : List Char) : ¬ Straddles (n - o) cs := by
  rw [Nat.sub_eq_zero_of_le h]
  exact not_straddles_zero cs

/-- A literal moves the offset by its length. -/
lemma straddles_literal_append {a : List Char} (k : ℕ) (ha : IsAscii a ∧ size a = k)
    (n o : ℕ) (cs : List Char) : Straddles (n - o) (a ++ cs) ↔ Straddles (n - (o + k)) cs := by
  rw [straddles_ascii_append ha.1, ha.2]

/-- Numbers are ASCII, and take a byte at least. -/
lemma isAscii_numeral (n : ℕ) : IsAscii (numeral n) := by
  intro c hc
  rw [numeral, if_neg (by omega), Int.natAbs_natCast] at hc
  have hdigit := Nat.isDigit_of_mem_toDigits (by decide) (by decide) hc
  rw [Char.isDigit, Bool.and_eq_true, decide_eq_true_eq, decide_eq_true_eq] at hdigit
  have hle : c.val.toNat ≤ 57 := hdigit.2
  exact utf8Size_eq_one (show c.val.toNat < 128 by omega)

lemma size_numeral_pos (n : ℕ) : 0 < size (numeral n) := by
  rw [numeral, if_neg (by omega), Int.natAbs_natCast]
  obtain ⟨d, t, hd⟩ := List.exists_cons_of_ne_nil (Nat.toDigits_ne_nil (n := n) (b := 10))
  rw [hd, size_cons]
  exact Nat.add_pos_left d.utf8Size_pos _

lemma isAscii_option_num (o : Option ℕ) :
    IsAscii (chars (.option (fun n : ℕ => .num n) o)) := by
  cases o with
  | none => rw [Json.option, chars]; decide
  | some n => rw [Json.option, chars]; exact isAscii_numeral n

lemma size_option_num_pos (o : Option ℕ) :
    0 < size (chars (.option (fun n : ℕ => .num n) o)) := by
  cases o with
  | none => rw [Json.option, chars]; decide
  | some n => rw [Json.option, chars]; exact size_numeral_pos n

/-- The items of an array from its front. -/
lemma exists_itemChars_cons (v : Json) (vs : List Json) :
    ∃ t, itemChars (v :: vs) = chars v ++ t := by
  cases vs with
  | nil => exact ⟨[], by rw [itemChars, List.append_nil]⟩
  | cons w vs => exact ⟨_, rfl⟩

lemma itemChars_cons_cons (v w : Json) (vs : List Json) :
    itemChars (v :: w :: vs) = chars v ++ ',' :: itemChars (w :: vs) := by
  rw [itemChars]
  exact List.cons_ne_nil w vs

end Json
