import Mathlib.Tactic
import Accelrd.Library.Insertions

/-!
Values that are collected under keys, and sums over them.

* `buckets`, with `getElem?_buckets`: the values of each key, in the order in which they
  came.
* `accumulate`, with `getElem?_foldl_accumulate`: what is made of the values of each key.
* `arrivals`, with `mem_arrivals`: buckets that keep the order in which their keys came.
* `sum_map_sum_valuesOf`: the sums of the keys add up to the sum of everything.
* `sum_map_eq_add_repeats`: a sum over a list, against the sum over its distinct members.
* `sumOnce`: the sum that takes every key once, where all entries of a key have one value.
  `sum_eq_sumOnce` and `sum_eq_sumOnce_iff` say when a sum over all entries is that one.
-/

namespace Rollup

open Std

/-! ### Buckets -/

section Buckets

variable {κ ν : Type} [Ord κ] [TransOrd κ] [LawfulEqOrd κ] [DecidableEq κ]

/-- One value more under its key. -/
def push (m : ExtTreeMap κ (List ν)) (e : κ × ν) : ExtTreeMap κ (List ν) :=
  m.alter e.1 fun values => some (values.getD [] ++ [e.2])

/-- The values of each key. -/
def buckets (l : List (κ × ν)) : ExtTreeMap κ (List ν) := l.foldl push ∅

omit [Ord κ] [TransOrd κ] [LawfulEqOrd κ] in
/-- The values that a list has under a key. -/
def valuesOf (l : List (κ × ν)) (k : κ) : List ν := (l.filter (·.1 = k)).map Prod.snd

omit [Ord κ] [TransOrd κ] [LawfulEqOrd κ] in
lemma valuesOf_cons (e : κ × ν) (l : List (κ × ν)) (k : κ) :
    valuesOf (e :: l) k = if e.1 = k then e.2 :: valuesOf l k else valuesOf l k := by
  by_cases hk : e.1 = k <;> simp [valuesOf, hk]

omit [Ord κ] [TransOrd κ] [LawfulEqOrd κ] in
lemma valuesOf_eq_nil_iff {l : List (κ × ν)} {k : κ} :
    valuesOf l k = [] ↔ k ∉ l.map Prod.fst := by
  rw [valuesOf, List.map_eq_nil_iff, List.filter_eq_nil_iff, List.mem_map]
  simp only [decide_eq_true_eq, not_exists, not_and]

omit [Ord κ] [TransOrd κ] [LawfulEqOrd κ] in
lemma mem_valuesOf {l : List (κ × ν)} {k : κ} {v : ν} : v ∈ valuesOf l k ↔ (k, v) ∈ l := by
  rw [valuesOf, List.mem_map]
  constructor
  · rintro ⟨⟨k', v'⟩, he, rfl⟩
    obtain ⟨hmem, hk⟩ := List.mem_filter.mp he
    rwa [← of_decide_eq_true hk]
  · intro h
    exact ⟨(k, v), List.mem_filter.mpr ⟨h, decide_eq_true rfl⟩, rfl⟩

lemma getElem?_foldl_push (l : List (κ × ν)) (m : ExtTreeMap κ (List ν)) (k : κ) :
    (l.foldl push m)[k]? =
      if valuesOf l k = [] then m[k]? else some (m[k]?.getD [] ++ valuesOf l k) := by
  induction l generalizing m with
  | nil => rfl
  | cons e l ih =>
      rw [List.foldl_cons, ih, push, ExtTreeMap.getElem?_alter, valuesOf_cons]
      by_cases hk : e.1 = k
      · subst hk
        by_cases hnil : valuesOf l e.1 = [] <;> simp [hnil]
      · simp [hk]

/-- **The buckets** are the values of the keys that have any. -/
theorem getElem?_buckets (l : List (κ × ν)) (k : κ) :
    (buckets l)[k]? = if valuesOf l k = [] then none else some (valuesOf l k) := by
  rw [buckets, getElem?_foldl_push]
  simp

omit [Ord κ] [TransOrd κ] [LawfulEqOrd κ] in
/-- The values of those that have a key. -/
lemma valuesOf_filterMap_key (key : ν → Option κ) (l : List ν) (k : κ) :
    valuesOf (l.filterMap fun a => (key a).map (·, a)) k = l.filter (key · = some k) := by
  induction l with
  | nil => rfl
  | cons a l ih =>
      cases ha : key a with
      | none =>
          rw [List.filterMap_cons_none (by rw [ha]; rfl), ih,
            List.filter_cons_of_neg (by simp [ha])]
      | some k' =>
          rw [List.filterMap_cons_some (by rw [ha]; rfl), valuesOf_cons, ih]
          by_cases hk : k' = k
          · rw [if_pos hk, List.filter_cons_of_pos (by simp [ha, hk])]
          · rw [if_neg hk, List.filter_cons_of_neg (by simp [ha, hk])]

omit [Ord κ] [TransOrd κ] [LawfulEqOrd κ] [DecidableEq κ] in
lemma map_snd_filterMap_key (key : ν → Option κ) (l : List ν) :
    (l.filterMap fun a => (key a).map (·, a)).map Prod.snd = l.filter fun a => (key a).isSome := by
  induction l with
  | nil => rfl
  | cons a l ih =>
      cases ha : key a with
      | none =>
          rw [List.filterMap_cons_none (by rw [ha]; rfl), ih,
            List.filter_cons_of_neg (by simp [ha])]
      | some k =>
          rw [List.filterMap_cons_some (by rw [ha]; rfl), List.map_cons, ih,
            List.filter_cons_of_pos (by simp [ha])]

omit [Ord κ] [TransOrd κ] [LawfulEqOrd κ] in
lemma valuesOf_append (l l' : List (κ × ν)) (k : κ) :
    valuesOf (l ++ l') k = valuesOf l k ++ valuesOf l' k := by
  rw [valuesOf, List.filter_append, List.map_append]
  rfl

/-- A map has one value for a key. -/
lemma valuesOf_toList (m : ExtTreeMap κ ν) (k : κ) : valuesOf m.toList k = m[k]?.toList := by
  cases h : m[k]? with
  | none =>
      rw [Option.toList_none, valuesOf_eq_nil_iff, List.mem_map]
      rintro ⟨⟨k', v⟩, hmem, rfl⟩
      rw [ExtTreeMap.mem_toList_iff_getElem?_eq_some, h] at hmem
      cases hmem
  | some v =>
      have hperm : (m.toList.filter (·.1 = k)).Perm [(k, v)] := by
        refine (List.perm_ext_iff_of_nodup ((Insertions.nodup_toList m).filter _)
          (List.nodup_singleton _)).mpr ?_
        intro ⟨k', v'⟩
        rw [List.mem_filter, ExtTreeMap.mem_toList_iff_getElem?_eq_some, List.mem_singleton,
          decide_eq_true_eq, Prod.mk.injEq]
        constructor
        · rintro ⟨hmem, rfl⟩
          exact ⟨rfl, Option.some.inj (hmem.symm.trans h)⟩
        · rintro ⟨rfl, rfl⟩
          exact ⟨h, rfl⟩
      rw [valuesOf, List.perm_singleton.mp hperm]
      rfl

/-! ### Accumulators -/

section Accumulate

variable {β : Type} (step : β → ν → β) (start : β)

/-- One value more for the accumulator of its key, which begins at `start`. -/
def accumulate (m : ExtTreeMap κ β) (e : κ × ν) : ExtTreeMap κ β :=
  m.alter e.1 fun b => some (step (b.getD start) e.2)

/-- **The accumulators** have taken the values of their keys, in the order in which they
came. -/
lemma getElem?_foldl_accumulate (l : List (κ × ν)) (m : ExtTreeMap κ β) (k : κ) :
    (l.foldl (accumulate step start) m)[k]? =
      if valuesOf l k = [] then m[k]?
      else some ((valuesOf l k).foldl step (m[k]?.getD start)) := by
  induction l generalizing m with
  | nil => rfl
  | cons e l ih =>
      rw [List.foldl_cons, ih, accumulate, ExtTreeMap.getElem?_alter, valuesOf_cons]
      by_cases hk : e.1 = k
      · subst hk
        by_cases hnil : valuesOf l e.1 = [] <;> simp [hnil]
      · simp [hk]

end Accumulate

end Buckets

/-! ### Buckets in the order of arrival -/

section Arrival

variable {κ ν : Type} [DecidableEq κ]

/-- One value more under its key, where the keys stay in the order in which they came. -/
def arrive (k : κ) (v : ν) : List (κ × List ν) → List (κ × List ν)
  | [] => [(k, [v])]
  | (k', vs) :: rest => if k' = k then (k', vs ++ [v]) :: rest else (k', vs) :: arrive k v rest

variable {k : κ} {v : ν} {l : List (κ × List ν)}

lemma map_fst_arrive :
    (arrive k v l).map Prod.fst =
      if k ∈ l.map Prod.fst then l.map Prod.fst else l.map Prod.fst ++ [k] := by
  induction l with
  | nil => rfl
  | cons e l ih =>
      obtain ⟨k', vs⟩ := e
      rw [arrive]
      by_cases hk : k' = k
      · rw [if_pos hk, List.map_cons, List.map_cons, if_pos (by rw [hk]; exact List.mem_cons_self)]
      · rw [if_neg hk, List.map_cons, ih, List.map_cons]
        have hiff : k ∈ k' :: l.map Prod.fst ↔ k ∈ l.map Prod.fst :=
          List.mem_cons.trans (or_iff_right (Ne.symm hk))
        by_cases hmem : k ∈ l.map Prod.fst
        · rw [if_pos hmem, if_pos (hiff.mpr hmem)]
        · rw [if_neg hmem, if_neg (hiff.not.mpr hmem), List.cons_append]

/-- Every key has one bucket. -/
lemma nodup_arrive (h : (l.map Prod.fst).Nodup) : ((arrive k v l).map Prod.fst).Nodup := by
  rw [map_fst_arrive]
  split_ifs with hmem
  · exact h
  · exact List.nodup_append.mpr ⟨h, List.nodup_singleton k, fun a ha b hb =>
      fun hab => hmem (by rwa [← List.mem_singleton.mp hb, ← hab])⟩

/-- Nothing is lost. -/
lemma flatMap_snd_arrive_perm :
    ((arrive k v l).flatMap Prod.snd).Perm (v :: l.flatMap Prod.snd) := by
  induction l with
  | nil => exact List.Perm.refl _
  | cons e l ih =>
      obtain ⟨k', vs⟩ := e
      rw [arrive]
      split_ifs with hk
      · rw [List.flatMap_cons, List.flatMap_cons, List.append_assoc]
        exact List.perm_middle
      · rw [List.flatMap_cons, List.flatMap_cons]
        exact (ih.append_left vs).trans List.perm_middle

/-- The buckets after a value. -/
lemma mem_arrive_iff (h : (l.map Prod.fst).Nodup) {k' : κ} {vs : List ν} :
    (k', vs) ∈ arrive k v l ↔ k' ≠ k ∧ (k', vs) ∈ l ∨ k' = k ∧
      ((∃ old, (k, old) ∈ l ∧ vs = old ++ [v]) ∨ k ∉ l.map Prod.fst ∧ vs = [v]) := by
  induction l with
  | nil => simp [arrive]
  | cons e l ih =>
      obtain ⟨k₁, vs₁⟩ := e
      obtain ⟨hk₁, hrest⟩ := List.nodup_cons.mp h
      have hnot (old : List ν) : (k₁, old) ∉ l := fun hold =>
        hk₁ (List.mem_map.mpr ⟨_, hold, rfl⟩)
      rw [arrive]
      split_ifs with heq
      · subst heq
        by_cases hk' : k' = k₁
        · subst hk'
          simp [hnot, eq_comm]
        · simp [hk']
      · rw [List.mem_cons, ih hrest]
        by_cases hk' : k' = k
        · subst hk'
          simp [Ne.symm heq]
        · simp [hk']

/-- The buckets of a list. -/
def arrivals (l : List (κ × ν)) : List (κ × List ν) := l.foldl (fun m e => arrive e.1 e.2 m) []

lemma arrivals_append_singleton (l : List (κ × ν)) (e : κ × ν) :
    arrivals (l ++ [e]) = arrive e.1 e.2 (arrivals l) := List.foldl_concat _ _ _ _

lemma nodup_arrivals (l : List (κ × ν)) : ((arrivals l).map Prod.fst).Nodup := by
  induction l using List.reverseRecOn with
  | nil => exact List.nodup_nil
  | append_singleton l e ih =>
      rw [arrivals_append_singleton]
      exact nodup_arrive ih

/-- Every value is in a bucket. -/
lemma flatMap_snd_arrivals_perm (l : List (κ × ν)) :
    ((arrivals l).flatMap Prod.snd).Perm (l.map Prod.snd) := by
  induction l using List.reverseRecOn with
  | nil => exact List.Perm.refl _
  | append_singleton l e ih =>
      rw [arrivals_append_singleton, List.map_append, List.map_singleton]
      exact flatMap_snd_arrive_perm.trans ((ih.cons e.2).trans
        (List.perm_append_singleton e.2 _).symm)

/-- **The buckets** hold the values of the keys that have any. -/
lemma mem_arrivals {l : List (κ × ν)} {k : κ} {vs : List ν} :
    (k, vs) ∈ arrivals l ↔ vs = valuesOf l k ∧ vs ≠ [] := by
  induction l using List.reverseRecOn generalizing k vs with
  | nil => simp [arrivals, valuesOf]
  | append_singleton l e ih =>
      obtain ⟨k₁, v₁⟩ := e
      have hvalues : valuesOf (l ++ [(k₁, v₁)]) k =
          if k₁ = k then valuesOf l k ++ [v₁] else valuesOf l k := by
        by_cases hk : k₁ = k <;> simp [valuesOf, hk]
      have hkey : k₁ ∈ (arrivals l).map Prod.fst ↔ valuesOf l k₁ ≠ [] := by
        constructor
        · intro hmem
          obtain ⟨⟨k₂, old⟩, hold, rfl⟩ := List.mem_map.mp hmem
          obtain ⟨rfl, hne⟩ := ih.mp hold
          exact hne
        · exact fun hne => List.mem_map_of_mem (ih.mpr ⟨rfl, hne⟩)
      rw [arrivals_append_singleton, mem_arrive_iff (nodup_arrivals l), hvalues, hkey]
      by_cases hk : k = k₁
      · subst hk
        rw [if_pos rfl]
        constructor
        · rintro (⟨hne, -⟩ | ⟨-, ⟨old, hold, rfl⟩ | ⟨hnil, rfl⟩⟩)
          · exact absurd rfl hne
          · rw [(ih.mp hold).1]
            exact ⟨rfl, List.concat_ne_nil _ _⟩
          · rw [not_not.mp hnil]
            exact ⟨rfl, List.cons_ne_nil _ _⟩
        · rintro ⟨rfl, -⟩
          by_cases hnil : valuesOf l k = []
          · exact .inr ⟨rfl, .inr ⟨not_not.mpr hnil, by rw [hnil]; rfl⟩⟩
          · exact .inr ⟨rfl, .inl ⟨_, ih.mpr ⟨rfl, hnil⟩, rfl⟩⟩
      · rw [if_neg (Ne.symm hk), ih]
        simp [hk]

end Arrival

/-! ### Sums -/

section Sums

variable {κ R : Type} [DecidableEq κ] [AddCommMonoid R]

/-- **The sums of the keys add up**: over any list that has each key that occurs once. -/
theorem sum_map_sum_valuesOf {keys : List κ} (hnd : keys.Nodup) {l : List (κ × R)}
    (hmem : ∀ e ∈ l, e.1 ∈ keys) :
    (keys.map fun k => (valuesOf l k).sum).sum = (l.map Prod.snd).sum := by
  induction l with
  | nil => simp [valuesOf]
  | cons e l ih =>
      rw [List.forall_mem_cons] at hmem
      have hsplit (k : κ) :
          (valuesOf (e :: l) k).sum = (if k = e.1 then e.2 else 0) + (valuesOf l k).sum := by
        rw [valuesOf_cons]
        by_cases hk : e.1 = k
        · simp [hk]
        · simp [hk, Ne.symm hk]
      have hone : (keys.map fun k => if k = e.1 then e.2 else 0).sum = e.2 := by
        rw [← List.sum_toFinset _ hnd, Finset.sum_ite_eq', if_pos (List.mem_toFinset.mpr hmem.1)]
      rw [List.map_congr_left fun k _ => hsplit k, List.sum_map_add, ih hmem.2, hone,
        List.map_cons, List.sum_cons]

/-- A sum takes every member once, and once more for each time that it is repeated. -/
lemma sum_map_eq_add_repeats {α : Type} [DecidableEq α] [hbeq : BEq α] [LawfulBEq α]
    (l : List α) (f : α → ℕ) :
    (l.map f).sum = ∑ x ∈ l.toFinset, f x + ∑ x ∈ l.toFinset, (l.count x - 1) * f x := by
  obtain rfl : hbeq = instBEqOfDecidableEq := lawful_beq_subsingleton _ _
  rw [Finset.sum_list_map_count, ← Finset.sum_add_distrib]
  refine Finset.sum_congr rfl fun x hx => ?_
  have hpos : 1 ≤ l.count x := List.count_pos_iff.mpr (List.mem_toFinset.mp hx)
  calc l.count x • f x = (1 + (l.count x - 1)) * f x := by
        rw [smul_eq_mul, Nat.add_sub_cancel' hpos]
    _ = f x + (l.count x - 1) * f x := by rw [add_mul, one_mul]

end Sums

/-! ### Each key once -/

section Once

variable {σ κ R : Type} [DecidableEq κ] (key : σ → κ) (value : σ → R)

/-- All entries of a key have the same value. -/
def Steady (l : List σ) : Prop := ∀ s ∈ l, ∀ s' ∈ l, key s = key s' → value s = value s'

variable [Ring R] [LinearOrder R] [IsStrictOrderedRing R]

/-- The value of a key: that of its first entry. -/
def valueAt (l : List σ) (k : κ) : R := ((l.find? (key · = k)).map value).getD 0

/-- The sum over the keys. -/
def sumOnce (l : List σ) : R := ∑ k ∈ (l.map key).toFinset, valueAt key value l k

/-- No two entries with a value other than zero have the same key. -/
def Single (l : List σ) : Prop := ((l.filter (value · ≠ 0)).map key).Nodup

variable {key value} {l : List σ}

omit [DecidableEq κ] [Ring R] [LinearOrder R] [IsStrictOrderedRing R] in
lemma Steady.sublist {l' : List σ} (h : Steady key value l) (hsub : l'.Sublist l) :
    Steady key value l' :=
  fun s hs s' hs' => h s (hsub.subset hs) s' (hsub.subset hs')

omit [DecidableEq κ] [IsStrictOrderedRing R] in
lemma Single.sublist {l' : List σ} (h : Single key value l) (hsub : l'.Sublist l) :
    Single key value l' :=
  List.Nodup.sublist ((hsub.filter _).map key) h

omit [LinearOrder R] [IsStrictOrderedRing R] in
/-- The value of a key is that of each of its entries. -/
lemma Steady.valueAt_eq (h : Steady key value l) {s : σ} (hs : s ∈ l) :
    valueAt key value l (key s) = value s := by
  cases hfind : l.find? (key · = key s) with
  | none => simpa using List.find?_eq_none.mp hfind s hs
  | some s' =>
      have hkey : key s' = key s := by simpa using List.find?_some hfind
      rw [valueAt, hfind]
      exact h s' (List.mem_of_find?_eq_some hfind) s hs hkey

omit [LinearOrder R] [IsStrictOrderedRing R] in
/-- A sum over all entries takes each key as often as it occurs. -/
lemma Steady.sum_eq (h : Steady key value l) :
    (l.map value).sum =
      ∑ k ∈ (l.map key).toFinset, (l.map key).count k • valueAt key value l k := by
  rw [← Finset.sum_list_map_count, List.map_map]
  exact congrArg List.sum (List.map_congr_left fun s hs => (h.valueAt_eq hs).symm)

omit [IsStrictOrderedRing R] in
/-- Single entries, said key by key. -/
lemma Steady.single_iff (h : Steady key value l) :
    Single key value l ↔
      ∀ k ∈ l.map key, valueAt key value l k ≠ 0 → (l.map key).count k = 1 := by
  have hfilter : (l.filter (value · ≠ 0)).map key =
      (l.map key).filter (valueAt key value l · ≠ 0) := by
    rw [List.filter_map]
    refine congrArg (List.map key) (List.filter_congr fun s hs => ?_)
    rw [Function.comp_apply, h.valueAt_eq hs]
  rw [Single, hfilter, List.nodup_iff_count_le_one]
  constructor
  · intro hle k hk hne
    have hcount := hle k
    rw [List.count_filter (by simpa using hne)] at hcount
    exact Nat.le_antisymm hcount (List.count_pos_iff.mpr hk)
  · intro hone k
    by_cases hk : k ∈ (l.map key).filter (valueAt key value l · ≠ 0)
    · obtain ⟨hmem, hne⟩ := List.mem_filter.mp hk
      rw [List.count_filter (by exact hne)]
      exact (hone k hmem (by simpa using hne)).le
    · rw [List.count_eq_zero_of_not_mem hk]
      exact Nat.zero_le 1

omit [IsStrictOrderedRing R] in
/-- With single entries, the sum over all entries takes each key once. -/
theorem sum_eq_sumOnce (h : Steady key value l) (hsingle : Single key value l) :
    (l.map value).sum = sumOnce key value l := by
  rw [h.sum_eq, sumOnce]
  refine Finset.sum_congr rfl fun k hk => ?_
  by_cases hzero : valueAt key value l k = 0
  · rw [hzero, smul_zero]
  · rw [h.single_iff.mp hsingle k (List.mem_toFinset.mp hk) hzero, one_smul]

/-- **When a sum takes each key once**: for values that are not negative, only with single
entries. -/
theorem sum_eq_sumOnce_iff (h : Steady key value l) (hnonneg : ∀ s ∈ l, 0 ≤ value s) :
    (l.map value).sum = sumOnce key value l ↔ Single key value l := by
  refine ⟨fun hsum => h.single_iff.mpr fun k hk hne => ?_, sum_eq_sumOnce h⟩
  have hat : ∀ k ∈ l.map key, 0 ≤ valueAt key value l k := by
    intro k hk
    obtain ⟨s, hs, rfl⟩ := List.mem_map.mp hk
    rw [h.valueAt_eq hs]
    exact hnonneg s hs
  have hle : ∀ k ∈ (l.map key).toFinset,
      valueAt key value l k ≤ (l.map key).count k • valueAt key value l k := by
    intro k hk
    have hmem := List.mem_toFinset.mp hk
    exact le_smul_of_one_le_left (hat k hmem) (List.count_pos_iff.mpr hmem)
  have hsame := (Finset.sum_eq_sum_iff_of_le hle).mp (hsum.symm.trans h.sum_eq)
  have hk' := hsame k (List.mem_toFinset.mpr hk)
  rw [nsmul_eq_mul] at hk'
  have hone : ((l.map key).count k : R) = 1 := (mul_eq_right₀ hne).mp hk'.symm
  exact_mod_cast hone

end Once

end Rollup
