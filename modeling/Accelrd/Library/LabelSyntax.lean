import Mathlib.Tactic

/-!
The names that may stand in the key and in the value of a label: up to 63 letters, digits,
dots, dashes and underscores, with a letter or a digit at both ends.

* `IsName`, `ValidKey`, `ValidValue`.
* `isName_wrap`, `isName_suffix`: a name that is made of a fixed part and a free one.
* `validValue_toString`: numerals are values.
-/

namespace LabelSyntax

/-- The characters of a name. -/
def isNameChar (c : Char) : Bool := c.isAlphanum || c = '.' || c = '_' || c = '-'

/-- A letter or a digit comes first. -/
def StartsAlnum (cs : List Char) : Prop := ∃ c ∈ cs.head?, c.isAlphanum

/-- A letter or a digit comes last. -/
def EndsAlnum (cs : List Char) : Prop := ∃ c ∈ cs.getLast?, c.isAlphanum

/-- The form of a name. -/
structure IsName (cs : List Char) : Prop where
  length_le : cs.length ≤ 63
  chars : ∀ c ∈ cs, isNameChar c
  starts : StartsAlnum cs
  ends : EndsAlnum cs

/-- The part of a key behind the slash. -/
def namePart (key : String) : List Char := (key.toList.dropWhile (· ≠ '/')).drop 1

/-- A key, by its name part. -/
def ValidKey (key : String) : Prop := IsName (namePart key)

/-- A value is a name or empty. -/
def ValidValue (value : String) : Prop := value = "" ∨ IsName value.toList

instance (cs : List Char) : Decidable (StartsAlnum cs) :=
  decidable_of_iff (cs.head?.any Char.isAlphanum) (by simp [StartsAlnum, Option.any_eq_true])

instance (cs : List Char) : Decidable (EndsAlnum cs) :=
  decidable_of_iff (cs.getLast?.any Char.isAlphanum) (by simp [EndsAlnum, Option.any_eq_true])

-- Named, since over characters another instance runs through all of them.
instance (cs : List Char) : Decidable (∀ c ∈ cs, isNameChar c) := List.decidableBAll _ cs

instance (cs : List Char) : Decidable (IsName cs) :=
  decidable_of_iff (cs.length ≤ 63 ∧ (∀ c ∈ cs, isNameChar c) ∧ StartsAlnum cs ∧ EndsAlnum cs)
    ⟨fun ⟨h₁, h₂, h₃, h₄⟩ => ⟨h₁, h₂, h₃, h₄⟩, fun h => ⟨h.1, h.2, h.3, h.4⟩⟩

instance (key : String) : Decidable (ValidKey key) := inferInstanceAs (Decidable (IsName _))

instance (value : String) : Decidable (ValidValue value) := inferInstanceAs (Decidable (_ ∨ _))

/-! ### Parts of names -/

lemma StartsAlnum.append {pre : List Char} (h : StartsAlnum pre) (cs : List Char) :
    StartsAlnum (pre ++ cs) := by
  obtain ⟨c, hc, halnum⟩ := h
  exact ⟨c, by rw [List.head?_append, Option.mem_def.mp hc]; rfl, halnum⟩

lemma EndsAlnum.append {suf : List Char} (h : EndsAlnum suf) (cs : List Char) :
    EndsAlnum (cs ++ suf) := by
  obtain ⟨c, hc, halnum⟩ := h
  exact ⟨c, by rw [List.getLast?_append, Option.mem_def.mp hc]; rfl, halnum⟩

/-- Behind a part that does not end in a letter or digit, the rest has to. -/
lemma endsAlnum_append_iff {pre : List Char} (h : ¬ EndsAlnum pre) {cs : List Char} :
    EndsAlnum (pre ++ cs) ↔ EndsAlnum cs := by
  constructor
  · rintro ⟨c, hc, halnum⟩
    rw [List.getLast?_append] at hc
    cases hlast : cs.getLast? with
    | none =>
        rw [hlast] at hc
        exact absurd ⟨c, hc, halnum⟩ h
    | some d =>
        rw [hlast] at hc
        exact ⟨c, hlast ▸ hc, halnum⟩
  · exact fun hcs => hcs.append pre

/-- **A free part between two fixed ones** makes a name if it is short enough. -/
lemma isName_wrap {pre mid suf : List Char} (hpre : StartsAlnum pre) (hsuf : EndsAlnum suf)
    (hchars : ∀ c ∈ pre ++ suf, isNameChar c) (hmid : ∀ c ∈ mid, isNameChar c) :
    IsName (pre ++ mid ++ suf) ↔ pre.length + mid.length + suf.length ≤ 63 := by
  rw [List.forall_mem_append] at hchars
  constructor
  · intro h
    have hlength := h.length_le
    rwa [List.length_append, List.length_append] at hlength
  · intro h
    refine ⟨by rwa [List.length_append, List.length_append], ?_, ?_, hsuf.append _⟩
    · exact List.forall_mem_append.mpr ⟨List.forall_mem_append.mpr ⟨hchars.1, hmid⟩, hchars.2⟩
    · rw [List.append_assoc]
      exact hpre.append _

/-- **A free part behind a fixed one** makes a name if it is short enough and ends well. -/
lemma isName_suffix {pre cs : List Char} (hpre : StartsAlnum pre) (hend : ¬ EndsAlnum pre)
    (hchars : ∀ c ∈ pre, isNameChar c) (hcs : ∀ c ∈ cs, isNameChar c) :
    IsName (pre ++ cs) ↔ pre.length + cs.length ≤ 63 ∧ EndsAlnum cs := by
  constructor
  · intro h
    have hlength := h.length_le
    rw [List.length_append] at hlength
    exact ⟨hlength, (endsAlnum_append_iff hend).mp h.ends⟩
  · rintro ⟨hlength, hends⟩
    exact ⟨by rwa [List.length_append], List.forall_mem_append.mpr ⟨hchars, hcs⟩,
      hpre.append _, hends.append _⟩

/-- The name part of a key whose slash stands in its first piece. -/
lemma namePart_append {lit : String} {name : List Char}
    (h : lit.toList.dropWhile (· ≠ '/') = '/' :: name) (s : String) :
    namePart (lit ++ s) = name ++ s.toList := by
  rw [namePart, String.toList_append, List.dropWhile_append, h]
  rfl

/-! ### Numerals -/

lemma isAlphanum_of_isDigit {c : Char} (h : c.isDigit) : c.isAlphanum := by
  rw [Char.isAlphanum, h, Bool.or_true]

lemma isNameChar_of_isAlphanum {c : Char} (h : c.isAlphanum) : isNameChar c := by
  rw [isNameChar, h]
  rfl

/-- A word of letters and digits is a name. -/
lemma isName_of_alphanum {cs : List Char} (hne : cs ≠ []) (hlength : cs.length ≤ 63)
    (h : ∀ c ∈ cs, c.isAlphanum) : IsName cs := by
  refine ⟨hlength, fun c hc => isNameChar_of_isAlphanum (h c hc), ?_, ?_⟩
  · exact ⟨cs.head hne, List.head?_eq_some_head hne, h _ (List.head_mem hne)⟩
  · exact ⟨cs.getLast hne, List.getLast?_eq_some_getLast hne, h _ (List.getLast_mem hne)⟩

lemma validValue_toString {n : ℕ} (h : n < 10 ^ 63) : ValidValue (toString n) := by
  refine Or.inr ?_
  rw [Nat.toString_eq_repr, Nat.toList_repr]
  refine isName_of_alphanum Nat.toDigits_ne_nil
    ((Nat.length_toDigits_le_iff (by omega) (by omega)).mpr h) fun c hc => ?_
  exact isAlphanum_of_isDigit (Nat.isDigit_of_mem_toDigits (by omega) (by omega) hc)

end LabelSyntax
