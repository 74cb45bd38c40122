import Mathlib.Tactic

/-!
Byte offsets in text that is encoded in UTF-8, on lists of characters: the number of bytes of
a text, its prefix with a number of bytes, which there is only if the offset is at the boundary
of a character, and the characters that lie across an offset.
-/

namespace Utf8

/-- The number of bytes of a text. -/
def size (cs : List Char) : ℕ := (cs.map Char.utf8Size).sum

/-- The first `n` bytes of a text, if they are characters of it. -/
def takeBytes : ℕ → List Char → Option (List Char)
  | 0, _ => some []
  | _ + 1, [] => none
  | n + 1, c :: cs =>
      if c.utf8Size ≤ n + 1 then (takeBytes (n + 1 - c.utf8Size) cs).map (c :: ·) else none

/-- A character of the text begins before the offset `n` and ends after it. -/
def Straddles (n : ℕ) (cs : List Char) : Prop :=
  ∃ p c r, cs = p ++ c :: r ∧ size p < n ∧ n < size p + c.utf8Size

@[simp] lemma size_nil : size [] = 0 := rfl

@[simp] lemma size_cons (c : Char) (cs : List Char) : size (c :: cs) = c.utf8Size + size cs := by
  rw [size, List.map_cons, List.sum_cons, size]

@[simp] lemma size_append (a b : List Char) : size (a ++ b) = size a + size b := by
  rw [size, List.map_append, List.sum_append, size, size]

lemma size_toList (s : String) : size s.toList = s.utf8ByteSize := by
  obtain ⟨cs, rfl⟩ : ∃ cs, s = String.ofList cs := ⟨s.toList, String.ofList_toList.symm⟩
  rw [String.toList_ofList]
  induction cs with
  | nil => rfl
  | cons c cs ih =>
      rw [size_cons, ih, String.ofList_cons, String.utf8ByteSize_append,
        String.utf8ByteSize_singleton]

lemma not_straddles_nil (n : ℕ) : ¬ Straddles n [] := by
  rintro ⟨p, c, r, heq, -⟩
  exact absurd heq.symm (List.append_ne_nil_of_right_ne_nil p (List.cons_ne_nil c r))

lemma not_straddles_zero (cs : List Char) : ¬ Straddles 0 cs := by
  rintro ⟨p, c, r, -, hlt, -⟩
  exact Nat.not_lt_zero _ hlt

/-- A place in a list is its front, or one in the rest. -/
lemma exists_split_cons {α : Type*} {P : List α → α → Prop} {a : α} {as : List α} :
    (∃ p b r, a :: as = p ++ b :: r ∧ P p b) ↔
      P [] a ∨ ∃ p b r, as = p ++ b :: r ∧ P (a :: p) b := by
  constructor
  · rintro ⟨p, b, r, heq, h⟩
    cases p with
    | nil =>
        obtain ⟨rfl, -⟩ := List.cons.inj heq
        exact Or.inl h
    | cons e p =>
        obtain ⟨rfl, rfl⟩ := List.cons.inj heq
        exact Or.inr ⟨p, b, r, rfl, h⟩
  · rintro (h | ⟨p, b, r, rfl, h⟩)
    · exact ⟨[], a, as, rfl, h⟩
    · exact ⟨a :: p, b, r, rfl, h⟩

/-- The first character lies across the offset, or one of the others. -/
lemma straddles_cons (n : ℕ) (c : Char) (cs : List Char) :
    Straddles n (c :: cs) ↔ (0 < n ∧ n < c.utf8Size) ∨ Straddles (n - c.utf8Size) cs := by
  rw [Straddles, exists_split_cons, size_nil, Nat.zero_add]
  refine or_congr_right (exists₃_congr fun p d r => and_congr_right fun _ => ?_)
  rw [size_cons]
  omega

/-- Of two texts in a row, a character of the first lies across the offset, or one of the
second. -/
lemma straddles_append (n : ℕ) (a b : List Char) :
    Straddles n (a ++ b) ↔ Straddles n a ∨ Straddles (n - size a) b := by
  induction a generalizing n with
  | nil =>
      rw [List.nil_append, size_nil, Nat.sub_zero]
      exact ⟨Or.inr, fun h => h.resolve_left (not_straddles_nil n)⟩
  | cons c a ih =>
      rw [List.cons_append, straddles_cons, straddles_cons, ih, size_cons, or_assoc,
        Nat.sub_add_eq]

/-- No character lies across the end of a text. -/
lemma not_straddles_of_size_le {n : ℕ} {cs : List Char} (h : size cs ≤ n) : ¬ Straddles n cs := by
  rintro ⟨p, c, r, rfl, hbegin, hend⟩
  rw [size_append, size_cons] at h
  omega

/-- A text of ASCII characters. -/
def IsAscii (cs : List Char) : Prop := ∀ c ∈ cs, c.utf8Size = 1

instance (cs : List Char) : Decidable (IsAscii cs) :=
  List.decidableBAll _ cs

lemma IsAscii.append {a b : List Char} (ha : IsAscii a) (hb : IsAscii b) : IsAscii (a ++ b) :=
  List.forall_mem_append.mpr ⟨ha, hb⟩

lemma IsAscii.not_straddles {cs : List Char} (h : IsAscii cs) (n : ℕ) : ¬ Straddles n cs := by
  rintro ⟨p, c, r, rfl, hbegin, hend⟩
  rw [h c (List.mem_append_right p List.mem_cons_self)] at hend
  omega

/-- ASCII text in front only moves the offset. -/
lemma IsAscii.straddles_append {a : List Char} (ha : IsAscii a) (n : ℕ) (b : List Char) :
    Straddles n (a ++ b) ↔ Straddles (n - size a) b := by
  rw [Utf8.straddles_append]
  exact ⟨fun h => h.resolve_left (ha.not_straddles n), Or.inr⟩

/-- **There is a prefix of `n` bytes unless a character lies across the offset.** -/
theorem isSome_takeBytes_iff {n : ℕ} {cs : List Char} (h : n ≤ size cs) :
    (takeBytes n cs).isSome ↔ ¬ Straddles n cs := by
  induction cs generalizing n with
  | nil =>
      obtain rfl := Nat.le_zero.mp h
      exact iff_of_true rfl (not_straddles_zero _)
  | cons c cs ih =>
      cases n with
      | zero => exact iff_of_true rfl (not_straddles_zero _)
      | succ n =>
          rw [size_cons] at h
          rw [takeBytes, straddles_cons]
          split_ifs with hfits
          · rw [Option.isSome_map, ih (by omega)]
            constructor
            · rintro hcs (hc | hc)
              · omega
              · exact hcs hc
            · exact fun hcs hc => hcs (Or.inr hc)
          · exact iff_of_false Bool.false_ne_true fun hcs => hcs (Or.inl ⟨by omega, by omega⟩)

end Utf8
