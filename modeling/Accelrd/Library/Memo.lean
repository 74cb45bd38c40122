import Std.Data.ExtTreeMap.Lemmas
import Mathlib.Tactic

/-!
A map that is asked for a value under a key, and keeps the one that it is handed where it
has none.

* `getOrInsert`: the operation.
* `extends_getOrInsert`: what is kept stays.
* `forall_getOrInsert`: what holds of all that is handed in holds of all that is kept.
-/

namespace Memo

open Std

variable {κ α : Type} [Ord κ] [TransOrd κ]

/-- The value under a key, which is `new` if there is none yet. -/
def getOrInsert (kept : ExtTreeMap κ α) (key : κ) (new : α) : α × ExtTreeMap κ α :=
  match kept[key]? with
  | some a => (a, kept)
  | none => (new, kept.insert key new)

/-- All that the one keeps the other does. -/
def Extends (kept kept' : ExtTreeMap κ α) : Prop :=
  ∀ (k : κ) (a : α), kept[k]? = some a → kept'[k]? = some a

lemma Extends.refl (kept : ExtTreeMap κ α) : Extends kept kept := fun _ _ h => h

lemma Extends.trans {c c' c'' : ExtTreeMap κ α} (h : Extends c c') (h' : Extends c' c'') :
    Extends c c'' := fun k a hk => h' k a (h k a hk)

variable (kept : ExtTreeMap κ α) (key : κ) (new : α)

/-- What is returned is kept. -/
lemma getElem?_getOrInsert :
    (getOrInsert kept key new).2[key]? = some (getOrInsert kept key new).1 := by
  rw [getOrInsert]
  cases h : kept[key]? with
  | some b => exact h
  | none => exact ExtTreeMap.getElem?_insert_self

variable [LawfulEqOrd κ]

lemma extends_getOrInsert : Extends kept (getOrInsert kept key new).2 := by
  intro k a hk
  rw [getOrInsert]
  cases h : kept[key]? with
  | some b => exact hk
  | none =>
      have hne : key ≠ k := by
        rintro rfl
        rw [h] at hk
        cases hk
      rw [ExtTreeMap.getElem?_insert, if_neg (by rwa [Std.compare_eq_iff_eq])]
      exact hk

/-- What is kept was kept before, or it is what is handed in. -/
lemma forall_getOrInsert {P : κ → α → Prop} (hkept : ∀ k a, kept[k]? = some a → P k a)
    (hnew : P key new) : ∀ k a, (getOrInsert kept key new).2[k]? = some a → P k a := by
  intro k a
  rw [getOrInsert]
  cases h : kept[key]? with
  | some b => exact hkept k a
  | none =>
      intro hk
      rw [ExtTreeMap.getElem?_insert] at hk
      split_ifs at hk with hkey
      · obtain rfl := Std.compare_eq_iff_eq.mp hkey
        obtain rfl := Option.some.inj hk
        exact hnew
      · exact hkept k a hk

end Memo
