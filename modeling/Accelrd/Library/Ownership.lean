import Mathlib.Tactic

/-!
A table shared by several writers, each with keys of its own. A write is given by its
word on each key: `none` to leave the key alone, `some v` to make its value `v`, where
absent values are values too.

* `after`: the table after a write; `lastWord`: a key after a history of words on it.
* `Settles`: a write that would make the owned keys what the owner wants and leaves the
  others alone. The owner may prepare it from an old copy of the table, since
  `Settles.congr` keeps it valid across the writes of the others, and may repeat it, by
  `Settles.again`.
-/

namespace Ownership

variable {κ ν : Type}

/-- The table after a write. -/
def after (word : κ → Option (Option ν)) (table : κ → Option ν) : κ → Option ν :=
  fun k => (word k).getD (table k)

/-- The value of a key after a history of words on it. -/
def lastWord (initial : Option ν) (words : List (Option (Option ν))) : Option ν :=
  (words.filterMap id).getLast?.getD initial

@[simp] lemma lastWord_append_singleton (initial : Option ν) (words : List (Option (Option ν)))
    (w : Option (Option ν)) :
    lastWord initial (words ++ [w]) = w.getD (lastWord initial words) := by
  cases w <;> simp [lastWord]

/-- A history that is read off from a list of events, with one event more. -/
lemma lastWord_map_append_singleton {α : Type} (initial : Option ν) (f : α → Option (Option ν))
    (es : List α) (e : α) :
    lastWord initial ((es ++ [e]).map f) = (f e).getD (lastWord initial (es.map f)) := by
  rw [List.map_append, List.map_singleton, lastWord_append_singleton]

/-! ### The owner's writes -/

variable {owned : κ → Prop} {word : κ → Option (Option ν)} {table table' wanted : κ → Option ν}

/-- The write would make the owned keys what is wanted, and it leaves the others alone. -/
structure Settles (owned : κ → Prop) (word : κ → Option (Option ν))
    (table wanted : κ → Option ν) : Prop where
  settled : ∀ k, owned k → after word table k = wanted k
  frame : ∀ k, ¬ owned k → word k = none

/-- Writes to other keys do not matter. -/
lemma Settles.congr (h : Settles owned word table wanted)
    (heq : ∀ k, owned k → table' k = table k) : Settles owned word table' wanted where
  settled k hk := by rw [← h.settled k hk, after, after, heq k hk]
  frame := h.frame

/-- The write may be repeated. -/
lemma Settles.again (h : Settles owned word table wanted) :
    Settles owned word (after word table) wanted where
  settled k hk := by
    have hw := h.settled k hk
    cases hword : word k with
    | none => rw [← hw, after, hword, Option.getD_none]
    | some v => simpa [after, hword] using hw
  frame := h.frame

end Ownership
