import Mathlib.Tactic
import Accelrd.Topology.Chassis

/-!
The two functions `slugify`, of `src/topology/labels.rs` and of `src/topology/lldp.rs`.

* `IsSlug`: the form of a slug.
* `lldpSlugify_eq_self_iff`: the texts of this form are those that `lldp::slugify` leaves as
  they are.
* `slugify_normalForm`: `labels::slugify` has this form, is idempotent, and is `lldp::slugify`
  wherever that leaves anything.
-/

namespace Accelrd.Topology

/-! ### Characters -/

/-- The characters of a slug: lower case letters, digits, dots, underscores and dashes. -/
def isSlugChar (c : Char) : Bool := c.isLower || c.isDigit || c = '.' || c = '_' || c = '-'

lemma isUpper_iff {c : Char} : c.isUpper ↔ 'A'.val ≤ c.val ∧ c.val ≤ 'Z'.val := by
  delta Char.isUpper
  simp

lemma isLower_iff {c : Char} : c.isLower ↔ 'a'.val ≤ c.val ∧ c.val ≤ 'z'.val := by
  delta Char.isLower
  simp

lemma isAlphanum_eq (c : Char) : c.isAlphanum = (c.isUpper || c.isLower || c.isDigit) := rfl

/-- What `to_ascii_lowercase` does to a character. -/
lemma toLower_cases (c : Char) :
    (c.isUpper ∧ c.toLower.isLower) ∨ (c.isUpper = false ∧ c.toLower = c) := by
  by_cases h : 'A'.val ≤ c.val ∧ c.val ≤ 'Z'.val
  · refine Or.inl ⟨isUpper_iff.mpr h, ?_⟩
    rw [isLower_iff]
    delta Char.toLower
    rw [dif_pos h]
    grind [UInt32.toNat_add, Char.toNat_val, UInt32.le_iff_toNat_le]
  · refine Or.inr ⟨Bool.eq_false_iff.mpr (isUpper_iff.not.mpr h), ?_⟩
    delta Char.toLower
    rw [dif_neg h]

/-- A letter is one in either case. -/
lemma separatesWords_toLower (c : Char) : separatesWords c.toLower = separatesWords c := by
  rcases toLower_cases c with ⟨hupper, hlower⟩ | ⟨-, heq⟩
  · simp [separatesWords, isAlphanum_eq, hupper, hlower]
  · rw [heq]

lemma isSlugChar_toLower {c : Char} (h : separatesWords c.toLower = false) :
    isSlugChar c.toLower := by
  rcases toLower_cases c with ⟨-, hlower⟩ | ⟨hupper, heq⟩
  · simp [isSlugChar, hlower]
  · rw [heq] at h ⊢
    simp only [separatesWords, isAlphanum_eq, hupper, Bool.false_or, Bool.not_eq_false'] at h
    rw [isSlugChar, h, Bool.true_or]

lemma isSlugChar_iff {c : Char} :
    isSlugChar c ↔ c.isLower ∨ c.isDigit ∨ c = '.' ∨ c = '_' ∨ c = '-' := by
  simp only [isSlugChar, Bool.or_eq_true, decide_eq_true_eq, or_assoc]

/-- A slug has no upper case letters. -/
lemma toLower_eq_self_of_isSlugChar {c : Char} (h : isSlugChar c) : c.toLower = c := by
  rcases toLower_cases c with ⟨hupper, -⟩ | ⟨-, heq⟩
  · have hrange : 65 ≤ c.toNat ∧ c.toNat ≤ 90 := by
      simpa [UInt32.le_iff_toNat_le] using isUpper_iff.mp hupper
    rcases isSlugChar_iff.mp h with hlower | hdigit | rfl | rfl | rfl
    · have hlow : 97 ≤ c.toNat ∧ c.toNat ≤ 122 := by
        simpa [UInt32.le_iff_toNat_le] using isLower_iff.mp hlower
      omega
    · have hdig : 48 ≤ c.toNat ∧ c.toNat ≤ 57 := by
        simpa [Char.isDigit, UInt32.le_iff_toNat_le] using hdigit
      omega
    all_goals exact absurd hupper (by decide)
  · exact heq

/-- Of the characters of a slug only the dash separates words. -/
lemma eq_dash_of_isSlugChar {c : Char} (h : isSlugChar c) (hc : separatesWords c) : c = '-' := by
  rcases isSlugChar_iff.mp h with hlower | hdigit | rfl | rfl | rfl
  · simp [separatesWords, isAlphanum_eq, hlower] at hc
  · simp [separatesWords, isAlphanum_eq, hdigit] at hc
  · exact absurd hc (by decide)
  · exact absurd hc (by decide)
  · rfl

/-! ### The form of a slug -/

/-- **A slug** is made of the characters above, and a dash stands between two others. -/
structure IsSlug (s : String) : Prop where
  chars : ∀ c ∈ s.toList, isSlugChar c
  head : s.toList.head? ≠ some '-'
  last : s.toList.getLast? ≠ some '-'
  single : Text.Single '-' s.toList

lemma isSlugChar_of_mem_squash {last : Bool} {cs : List Char} :
    ∀ c ∈ squash last cs, isSlugChar c := by
  induction cs generalizing last with
  | nil => exact List.forall_mem_nil _
  | cons c cs ih =>
      rw [squash_cons]
      cases hc : separatesWords c.toLower with
      | true =>
          rw [if_pos rfl]
          cases last with
          | true => exact ih
          | false => exact List.forall_mem_cons.mpr ⟨by decide, ih⟩
      | false => exact List.forall_mem_cons.mpr ⟨isSlugChar_toLower hc, ih⟩

/-- What is left of a text is a slug, or nothing. -/
lemma isSlug_lldpSlugify (s : String) : IsSlug (lldpSlugify s) where
  chars c hc := by
    rw [lldpSlugify, String.toList_ofList] at hc
    exact isSlugChar_of_mem_squash c ((Text.isInfix_trimMatches '-' _).subset hc)
  head := by
    rw [lldpSlugify, String.toList_ofList]
    exact Text.head?_trimMatches '-' _
  last := by
    rw [lldpSlugify, String.toList_ofList]
    exact Text.getLast?_trimMatches '-' _
  single := by
    rw [lldpSlugify, String.toList_ofList]
    exact (single_squash false s.toList).1.trimMatches

/-- The loop leaves a text as it is that has the characters of a slug and single dashes, none
of them in front after a dash. -/
lemma squash_eq_self {last : Bool} {cs : List Char} (hchars : ∀ c ∈ cs, isSlugChar c)
    (hsingle : Text.Single '-' cs) (hlast : last → cs.head? ≠ some '-') :
    squash last cs = cs := by
  induction cs generalizing last with
  | nil => rfl
  | cons c cs ih =>
      obtain ⟨hc, hcs⟩ := List.forall_mem_cons.mp hchars
      rw [squash_cons, toLower_eq_self_of_isSlugChar hc]
      cases hsep : separatesWords c with
      | true =>
          obtain rfl := eq_dash_of_isSlugChar hc hsep
          have hflag : last = false := by
            rw [Bool.eq_false_iff]
            exact fun h => hlast h rfl
          rw [if_pos rfl, hflag, if_neg Bool.false_ne_true,
            ih hcs hsingle.tail fun _ => Text.Single.head?_ne hsingle]
      | false =>
          rw [if_neg Bool.false_ne_true,
            ih hcs hsingle.tail fun h => absurd h Bool.false_ne_true]

/-- **Slugs are the texts that are left as they are.** -/
lemma lldpSlugify_eq_self_iff {s : String} : lldpSlugify s = s ↔ IsSlug s := by
  refine ⟨fun h => ?_, fun h => ?_⟩
  · rw [← h]
    exact isSlug_lldpSlugify s
  · rw [lldpSlugify, squash_eq_self h.chars h.single fun hlast => absurd hlast Bool.false_ne_true,
      Text.trimMatches_eq_self h.head h.last, String.ofList_toList]

/-! ### The fallback -/

/-- Nothing is left of a text without words. -/
lemma lldpSlugify_eq_empty_iff {s : String} :
    lldpSlugify s = "" ↔ s.toList.all separatesWords := by
  have hjoined : List.intercalate ['-'] (idWords s.toList) = [] ↔ idWords s.toList = [] := by
    cases hwords : idWords s.toList with
    | nil => exact iff_of_true rfl rfl
    | cons w ws =>
        have hw : w ≠ [] := by
          refine @Text.ne_nil_of_mem_words separatesWords (s.toList.map Char.toLower) w ?_
          rw [← idWords, hwords]
          exact List.mem_cons_self
        exact iff_of_false (Text.intercalate_ne_nil hw) (List.cons_ne_nil w ws)
  rw [← String.toList_eq_nil_iff, toList_lldpSlugify, hjoined, idWords, Text.words_eq_nil_iff,
    List.forall_mem_map, List.all_eq_true]
  simp only [separatesWords_toLower]

lemma slugify_eq (s : String) :
    slugify s = if lldpSlugify s = "" then "unknown" else lldpSlugify s := by
  have hempty : lldpSlugify s = "" ↔ Text.trimMatches '-' (squash false s.toList) = [] := by
    rw [lldpSlugify, String.ofList_eq_empty_iff]
  rw [slugify, lldpSlugify]
  exact if_congr hempty.symm rfl rfl

lemma slugify_eq_self {s : String} (h : IsSlug s) (hne : s ≠ "") : slugify s = s := by
  rw [slugify_eq, lldpSlugify_eq_self_iff.mpr h, if_neg hne]

/-- Whatever a model is called, its slug is one, and is not empty. -/
lemma isSlug_slugify (s : String) : slugify s ≠ "" ∧ IsSlug (slugify s) := by
  rw [slugify_eq]
  split_ifs with hempty
  · exact ⟨by decide, lldpSlugify_eq_self_iff.mp (by decide)⟩
  · exact ⟨hempty, isSlug_lldpSlugify s⟩

/-- **The normal form of slugs.** A slug of the labels is not empty, has the form of a slug, and
is its own slug. The copy of the function for switches gives the same, apart from texts without
words, of which it leaves nothing. -/
theorem slugify_normalForm (s : String) :
    (slugify s ≠ "" ∧ IsSlug (slugify s)) ∧ slugify (slugify s) = slugify s ∧
      if s.toList.all separatesWords then lldpSlugify s = "" ∧ slugify s = "unknown"
      else lldpSlugify s = slugify s := by
  have hform := isSlug_slugify s
  refine ⟨hform, slugify_eq_self hform.2 hform.1, ?_⟩
  split_ifs with hall
  · have hempty := lldpSlugify_eq_empty_iff.mpr hall
    exact ⟨hempty, by rw [slugify_eq, if_pos hempty]⟩
  · rw [slugify_eq, if_neg (mt lldpSlugify_eq_empty_iff.mp hall)]

example : slugify "NVIDIA H100 (80 GB)" = "nvidia-h100-80-gb" := by decide

end Accelrd.Topology
