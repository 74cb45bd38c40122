import Mathlib.Tactic

/-!
Maps that are given by the list of their insertions, of which a later one under the same
key overrides the earlier ones.

* `getElem?_ofList_append`: the later list goes first.
* `getElem?_ofList_eq_some_iff`: a lookup finds the last insertion of its key.
* `getElem?_ofList_flatMap_filter`: a lookup in a list of groups looks at the groups that
  may have the key, and at no others.
* `getElem?_ofList_map_toList`: a group that renders a map under injective keys.
* `HashOrder`: the order in which a hash map hands out what it holds.
-/

namespace Insertions

open Std

variable {κ ν : Type} [Ord κ] [TransOrd κ] [LawfulEqOrd κ] [DecidableEq κ]

/-- A key that is not inserted. -/
lemma getElem?_ofList_eq_none {l : List (κ × ν)} {k : κ} (h : ∀ e ∈ l, e.1 ≠ k) :
    (ExtTreeMap.ofList l)[k]? = none := by
  refine ExtTreeMap.getElem?_ofList_of_contains_eq_false ?_
  rw [List.contains_eq_mem, decide_eq_false_iff_not, List.mem_map]
  rintro ⟨e, he, hek⟩
  exact h e he hek

/-- The last insertion of a key counts. -/
lemma getElem?_ofList_append (l₁ l₂ : List (κ × ν)) (k : κ) :
    (ExtTreeMap.ofList (l₁ ++ l₂))[k]?
      = ((ExtTreeMap.ofList l₂)[k]?).or (ExtTreeMap.ofList l₁)[k]? := by
  simp only [ExtTreeMap.ofList_eq_insertMany_empty, ExtTreeMap.insertMany_append,
    ExtTreeMap.getElem?_insertMany_list, ExtTreeMap.getElem?_empty, Option.or_none]

/-- Insertions into a map. -/
lemma getElem?_insertMany (m : ExtTreeMap κ ν) (l : List (κ × ν)) (k : κ) :
    (m.insertMany l)[k]? = ((ExtTreeMap.ofList l)[k]?).or m[k]? := by
  simp only [ExtTreeMap.ofList_eq_insertMany_empty, ExtTreeMap.getElem?_insertMany_list,
    ExtTreeMap.getElem?_empty, Option.or_none]

/-- Other keys keep what they have. -/
lemma getElem?_insertMany_of_forall_ne {m : ExtTreeMap κ ν} {l : List (κ × ν)} {k : κ}
    (h : ∀ e ∈ l, e.1 ≠ k) : (m.insertMany l)[k]? = m[k]? := by
  rw [getElem?_insertMany, getElem?_ofList_eq_none h, Option.none_or]

lemma getElem?_ofList_eq_none_iff {l : List (κ × ν)} {k : κ} :
    (ExtTreeMap.ofList l)[k]? = none ↔ ∀ e ∈ l, e.1 ≠ k := by
  refine ⟨fun h e he hk => ?_, getElem?_ofList_eq_none⟩
  have hmem : k ∈ ExtTreeMap.ofList l := by
    rw [ExtTreeMap.mem_ofList, List.contains_eq_mem, decide_eq_true_eq, ← hk]
    exact List.mem_map_of_mem he
  rw [ExtTreeMap.mem_iff_isSome_getElem?, h] at hmem
  exact absurd hmem (by simp)

/-- **A lookup** finds the last insertion of its key. -/
lemma getElem?_ofList_eq_some_iff {l : List (κ × ν)} {k : κ} {v : ν} :
    (ExtTreeMap.ofList l)[k]? = some v ↔
      ∃ front back, l = front ++ (k, v) :: back ∧ ∀ e ∈ back, e.1 ≠ k := by
  constructor
  · intro h
    induction l using List.reverseRecOn with
    | nil => exact absurd h (by simp)
    | append_singleton l e ih =>
        rw [getElem?_ofList_append, ExtTreeMap.ofList_singleton, ExtTreeMap.getElem?_insert,
          ExtTreeMap.getElem?_empty] at h
        by_cases hk : e.1 = k
        · rw [if_pos (by rw [hk]; exact compare_self), Option.some_or] at h
          obtain rfl := Option.some.inj h
          exact ⟨l, [], by rw [← hk], List.forall_mem_nil _⟩
        · rw [if_neg (by rwa [Std.compare_eq_iff_eq]), Option.none_or] at h
          obtain ⟨front, back, rfl, hback⟩ := ih h
          refine ⟨front, back ++ [e], by simp, ?_⟩
          exact List.forall_mem_append.mpr ⟨hback, List.forall_mem_singleton.mpr hk⟩
  · rintro ⟨front, back, rfl, hback⟩
    rw [List.append_cons, getElem?_ofList_append, getElem?_ofList_eq_none hback, Option.none_or,
      getElem?_ofList_append, ExtTreeMap.ofList_singleton, ExtTreeMap.getElem?_insert_self,
      Option.some_or]

/-- What a lookup finds was inserted. -/
lemma mem_of_getElem?_ofList {l : List (κ × ν)} {k : κ} {v : ν}
    (h : (ExtTreeMap.ofList l)[k]? = some v) : (k, v) ∈ l := by
  obtain ⟨front, back, rfl, -⟩ := getElem?_ofList_eq_some_iff.mp h
  exact List.mem_append_right _ List.mem_cons_self

/-- Groups without the key may be left out. -/
lemma getElem?_ofList_flatMap_filter {γ : Type} {f : γ → List (κ × ν)} {p : γ → Bool}
    {gs : List γ} {k : κ} (h : ∀ g ∈ gs, p g = false → ∀ e ∈ f g, e.1 ≠ k) :
    (ExtTreeMap.ofList (gs.flatMap f))[k]? = (ExtTreeMap.ofList ((gs.filter p).flatMap f))[k]? := by
  induction gs with
  | nil => rfl
  | cons g gs ih =>
      rw [List.forall_mem_cons] at h
      rw [List.flatMap_cons, getElem?_ofList_append, ih h.2]
      cases hp : p g with
      | true => rw [List.filter_cons_of_pos hp, List.flatMap_cons, getElem?_ofList_append]
      | false =>
          rw [List.filter_cons_of_neg (by simp [hp]), getElem?_ofList_eq_none (h.1 hp),
            Option.or_none]

/-- A group that renders another map. -/
lemma getElem?_ofList_map_toList {α β : Type} [Ord α] [TransOrd α] [LawfulEqOrd α]
    [DecidableEq α] {f : α → κ} (hf : Function.Injective f) (g : β → ν) (m : ExtTreeMap α β)
    (a : α) :
    (ExtTreeMap.ofList (m.toList.map fun e => (f e.1, g e.2)))[f a]? = m[a]?.map g := by
  cases h : m[a]? with
  | none =>
      refine getElem?_ofList_eq_none fun e he heq => ?_
      obtain ⟨⟨a', b⟩, hmem, rfl⟩ := List.mem_map.mp he
      obtain rfl : a' = a := hf heq
      rw [ExtTreeMap.mem_toList_iff_getElem?_eq_some, h] at hmem
      simp at hmem
  | some b =>
      refine ExtTreeMap.getElem?_ofList_of_mem compare_self ?_
        (List.mem_map.mpr ⟨(a, b), ExtTreeMap.mem_toList_iff_getElem?_eq_some.mpr h, rfl⟩)
      refine List.pairwise_map.mpr (ExtTreeMap.distinct_keys_toList.imp fun hne heq => hne ?_)
      rw [hf (Std.compare_eq_iff_eq.mp heq)]
      exact compare_self

/-- A map that is laid over another. -/
lemma getElem?_insertMany_toList (m m' : ExtTreeMap κ ν) (k : κ) :
    (m.insertMany m'.toList)[k]? = (m'[k]?).or m[k]? := by
  have htoList := getElem?_ofList_map_toList Function.injective_id id m' k
  simp only [id_eq, Prod.mk.eta, List.map_id', Option.map_id] at htoList
  rw [getElem?_insertMany, htoList]

omit [DecidableEq κ] in
/-- A map holds each of its entries once. -/
lemma nodup_toList (m : ExtTreeMap κ ν) : m.toList.Nodup := by
  refine ExtTreeMap.distinct_keys_toList.imp fun {e e'} hne heq => hne ?_
  rw [heq]
  exact compare_self

/-! ### Iteration -/

/-- The order in which a hash map hands out what it holds: any rearrangement, as the seed of
the process has it. -/
structure HashOrder (α : Type) where
  arrange : List α → List α
  perm : ∀ l, (arrange l).Perm l

@[simp] lemma HashOrder.mem_arrange {α : Type} (order : HashOrder α) {l : List α} {a : α} :
    a ∈ order.arrange l ↔ a ∈ l := (order.perm l).mem_iff

@[simp] lemma HashOrder.arrange_nil {α : Type} (order : HashOrder α) : order.arrange [] = [] :=
  (order.perm []).eq_nil

/-- The order that leaves everything in its place. -/
def HashOrder.id {α : Type} : HashOrder α := ⟨fun l => l, fun l => .refl l⟩

/-- The order that hands out one entry last, if it is there. -/
def HashOrder.putLast {α : Type} [DecidableEq α] (a : α) : HashOrder α where
  arrange l := if a ∈ l then l.erase a ++ [a] else l
  perm l := by
    split_ifs with ha
    · exact List.perm_append_comm.trans (List.perm_cons_erase ha).symm
    · exact .refl l

lemma HashOrder.arrange_putLast {α : Type} [DecidableEq α] {a : α} {l : List α} (h : a ∈ l) :
    ∃ front, (HashOrder.putLast a).arrange l = front ++ [a] ∧ ∀ x ∈ front, x ∈ l :=
  ⟨l.erase a, if_pos h, fun _ => List.mem_of_mem_erase⟩

end Insertions
