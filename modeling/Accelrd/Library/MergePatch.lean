import Mathlib.Tactic

/-!
Merge patches on one flat JSON object, after RFC 7396: a member whose value is
`null` deletes the key, any other member overwrites it, and a key the patch
does not name is left alone.

* `MergePatch.apply`, with `getElem?_apply` as its only unfolding: the value of
  a key after the patch is the patch's own word on it, or the old value.
* `getElem?_ofList_of_nodup`: patches are written down as lists of members.
-/

open Std

/-- A merge patch of a flat object with keys `κ` and values `ν`: the value `none`
is JSON `null`. -/
abbrev MergePatch (κ ν : Type) [Ord κ] : Type := ExtTreeMap κ (Option ν)

namespace MergePatch

variable {κ ν : Type} [Ord κ] [TransOrd κ] [LawfulEqOrd κ] [DecidableEq κ]

omit [DecidableEq κ] in
/-- A map given by a list without repeated keys has every entry of the list. -/
lemma getElem?_ofList_of_nodup {β : Type} {l : List (κ × β)} (hnd : (l.map Prod.fst).Nodup) {k : κ}
    {v : β} (h : (k, v) ∈ l) : (ExtTreeMap.ofList l)[k]? = some v := by
  refine ExtTreeMap.getElem?_ofList_of_mem compare_self ?_ h
  exact (List.pairwise_map.mp hnd).imp fun hne heq => hne (Std.compare_eq_iff_eq.mp heq)

/-- Carry out one member of the patch. -/
def applyMember (m : ExtTreeMap κ ν) (k : κ) : Option ν → ExtTreeMap κ ν
  | none => m.erase k
  | some v => m.insert k v

/-- **RFC 7396** on a flat object: every member of the patch is carried out. -/
def apply (m : ExtTreeMap κ ν) (p : MergePatch κ ν) : ExtTreeMap κ ν :=
  p.foldl applyMember m

lemma getElem?_applyMember (m : ExtTreeMap κ ν) (k k' : κ) (v : Option ν) :
    (applyMember m k v)[k']? = if k = k' then v else m[k']? := by
  cases v with
  | none => simp [applyMember, ExtTreeMap.getElem?_erase]
  | some v => simp [applyMember, ExtTreeMap.getElem?_insert]

/-- A key that the list does not name keeps its value. -/
lemma getElem?_foldl_applyMember_of_notMem {l : List (κ × Option ν)} {k : κ}
    (h : ∀ p ∈ l, p.1 ≠ k) (m : ExtTreeMap κ ν) :
    (l.foldl (fun m p => applyMember m p.1 p.2) m)[k]? = m[k]? := by
  induction l generalizing m with
  | nil => rfl
  | cons p l ih =>
      rw [List.foldl_cons, ih fun q hq => h q (List.mem_cons_of_mem p hq), getElem?_applyMember,
        if_neg (h p List.mem_cons_self)]

/-- A key that the list names once takes the value given there. -/
lemma getElem?_foldl_applyMember_of_mem {l : List (κ × Option ν)}
    (hl : l.Pairwise fun a b => ¬compare a.1 b.1 = .eq) {k : κ} {v : Option ν}
    (h : (k, v) ∈ l) (m : ExtTreeMap κ ν) :
    (l.foldl (fun m p => applyMember m p.1 p.2) m)[k]? = v := by
  induction l generalizing m with
  | nil => simp at h
  | cons p l ih =>
      rw [List.pairwise_cons] at hl
      rw [List.foldl_cons]
      rcases List.mem_cons.mp h with rfl | h
      · rw [getElem?_foldl_applyMember_of_notMem, getElem?_applyMember, if_pos rfl]
        intro q hq hqk
        exact hl.1 q hq (by simp [hqk])
      · exact ih hl.2 h _

/-- The value of a key after a patch: the patch's own word on it, or the old
value. -/
@[simp] theorem getElem?_apply (m : ExtTreeMap κ ν) (p : MergePatch κ ν) (k : κ) :
    (apply m p)[k]? = (p[k]?).getD m[k]? := by
  rw [apply, ExtTreeMap.foldl_eq_foldl_toList]
  cases h : p[k]? with
  | none =>
      refine getElem?_foldl_applyMember_of_notMem (fun q hq hqk => ?_) m
      subst hqk
      rw [ExtTreeMap.mem_toList_iff_getElem?_eq_some.mp hq] at h
      simp at h
  | some v =>
      exact getElem?_foldl_applyMember_of_mem ExtTreeMap.distinct_keys_toList
        (ExtTreeMap.mem_toList_iff_getElem?_eq_some.mpr h) m

end MergePatch
