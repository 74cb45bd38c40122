import Mathlib.Tactic
import Accelrd.Library.Machine
import Accelrd.Calendar
import Accelrd.Prober.Pair

/-!
What `pick_pair` and `pick_loopback` decide, and how the decision depends on the cadence.

* `pickPair_lru`: `pick_pair` returns the two members that come first in the order, unless all
  were probed since the cutoff.
* `isSome_pickPair_iff`, `isSome_pickLoopback_iff`: when there is a pick. A larger cutoff
  leaves at least as many picks.
* `longerIsRarer_cases`: a longer cadence means a smaller cutoff as long as the conversions
  of `now_minus_secs` do.
-/

namespace Accelrd.Prober

open Machine Time

/-! ### The least recently used pair -/

/-- The sorted members are in the order of their slots. -/
lemma sortBy_lruCmp_sorted (vs : List NodeView) :
    (sortBy lruCmp vs).Pairwise fun a b => a.slot ≤ b.slot := by
  have hsorted := Lru.order_sorted (vs.map NodeView.slot)
  rwa [← map_slot_sortBy, List.pairwise_map] at hsorted

/-- Members with different names have different slots. -/
lemma eq_of_slot_eq {vs : List NodeView} (hnd : (vs.map (·.name)).Nodup) {a b : NodeView}
    (ha : a ∈ vs) (hb : b ∈ vs) (h : a.slot = b.slot) : a = b :=
  List.inj_on_of_nodup_map hnd ha hb (congrArg Lru.Slot.name h)

/-- **The order of the list does not matter.** -/
lemma sortBy_lruCmp_perm {vs vs' : List NodeView} (hnd : (vs.map (·.name)).Nodup)
    (h : vs'.Perm vs) : sortBy lruCmp vs' = sortBy lruCmp vs := by
  refine List.Perm.eq_of_pairwise (fun a b ha hb hab hba => ?_) (sortBy_lruCmp_sorted vs')
    (sortBy_lruCmp_sorted vs) (((sortBy_perm _ _).trans h).trans (sortBy_perm _ _).symm)
  have ha' := h.mem_iff.mp ((sortBy_perm lruCmp vs').mem_iff.mp ha)
  exact eq_of_slot_eq hnd ha' ((sortBy_perm lruCmp vs).mem_iff.mp hb) (le_antisymm hab hba)

/-- The front of the sorted members. -/
lemma exists_sortBy_lruCmp {vs : List NodeView} (h : 2 ≤ vs.length) :
    ∃ a b rest, sortBy lruCmp vs = a :: b :: rest := by
  rw [← (sortBy_perm lruCmp vs).length_eq] at h
  match hsort : sortBy lruCmp vs with
  | [] => rw [hsort] at h; simp at h
  | [_] => rw [hsort] at h; simp at h
  | a :: b :: rest => exact ⟨a, b, rest, rfl⟩

/-- The guard looks at the first member alone. -/
lemma pickPair_of_sortBy {vs : List NodeView} {a b : NodeView} {rest : List NodeView}
    (h : sortBy lruCmp vs = a :: b :: rest) (cutoff : String) :
    pickPair vs cutoff = if a.slot.last < cutoff then some (a, b) else none := by
  have hsorted := sortBy_lruCmp_sorted vs
  rw [h, List.pairwise_cons] at hsorted
  rw [← guard_iff (hsorted.1 b List.mem_cons_self), pickPair, h]

/-- A member was probed since the cutoff. -/
lemma not_last_lt_iff (v : NodeView) (cutoff : String) :
    ¬ v.slot.last < cutoff ↔ ∃ t, v.lastAt = some t ∧ cutoff ≤ t := by
  rw [NodeView.slot, Lru.Slot.last_mk]
  cases v.lastAt with
  | none => simp [stampOf]
  | some t => simp only [stampOf, WithBot.coe_lt_coe, not_lt, Option.some.injEq, exists_eq_left']

/-- **When there is no pick**: every member was probed since the cutoff. -/
lemma pickPair_eq_none_iff {vs : List NodeView} (h : 2 ≤ vs.length) (cutoff : String) :
    pickPair vs cutoff = none ↔ ∀ v ∈ vs, ∃ t, v.lastAt = some t ∧ cutoff ≤ t := by
  obtain ⟨a, b, rest, hsort⟩ := exists_sortBy_lruCmp h
  have hsorted := sortBy_lruCmp_sorted vs
  rw [hsort, List.pairwise_cons] at hsorted
  have hmem (v : NodeView) : v ∈ vs ↔ v = a ∨ v ∈ b :: rest := by
    rw [← (sortBy_perm lruCmp vs).mem_iff, hsort, List.mem_cons]
  have hguard := not_last_lt_iff a cutoff
  rw [pickPair_of_sortBy hsort]
  constructor
  · intro hnone v hv
    have ha : ¬ a.slot.last < cutoff := by
      intro hlt
      rw [if_pos hlt] at hnone
      simp at hnone
    refine (not_last_lt_iff v cutoff).mp fun hlt => ?_
    rcases (hmem v).mp hv with rfl | hv
    · exact ha hlt
    · exact ha ((Lru.Slot.last_le (hsorted.1 v hv)).trans_lt hlt)
  · intro hall
    rw [if_neg (hguard.mpr (hall a ((hmem a).mpr (Or.inl rfl))))]

/-- **`pick_pair` is the pair that was used least recently**: there is none exactly if every
member was probed since the cutoff, and otherwise it is the first two members in the order
(never probed, then oldest, then name), however the list is arranged. -/
theorem pickPair_lru {vs : List NodeView} (hlen : 2 ≤ vs.length)
    (hnd : (vs.map (·.name)).Nodup) (cutoff : String) :
    (pickPair vs cutoff = none ↔ ∀ v ∈ vs, ∃ t, v.lastAt = some t ∧ cutoff ≤ t) ∧
    (∀ a b, pickPair vs cutoff = some (a, b) → a ∈ vs ∧ b ∈ vs ∧ a.name ≠ b.name ∧
      a.slot < b.slot ∧ ∀ v ∈ vs, v = a ∨ v = b ∨ b.slot < v.slot) ∧
    ∀ vs', vs'.Perm vs → pickPair vs' cutoff = pickPair vs cutoff := by
  refine ⟨pickPair_eq_none_iff hlen cutoff, ?_, ?_⟩
  · intro a b h
    obtain ⟨rest, hsort⟩ := pickPair_eq_some h
    obtain ⟨ha, hb⟩ := pickPair_mem h
    have hne := pickPair_ne hnd h
    have hsorted := sortBy_lruCmp_sorted vs
    rw [hsort, List.pairwise_cons, List.pairwise_cons] at hsorted
    have hlt {x y : NodeView} (hx : x ∈ vs) (hy : y ∈ vs) (hxy : x ≠ y)
        (hle : x.slot ≤ y.slot) : x.slot < y.slot :=
      lt_of_le_of_ne hle fun heq => hxy (eq_of_slot_eq hnd hx hy heq)
    refine ⟨ha, hb, hne, hlt ha hb (fun heq => hne (congrArg _ heq))
      (hsorted.1 b List.mem_cons_self), fun v hv => ?_⟩
    have hv' := (sortBy_perm lruCmp vs).mem_iff.mpr hv
    rw [hsort, List.mem_cons, List.mem_cons] at hv'
    rcases hv' with hv' | hv' | hv'
    · exact Or.inl hv'
    · exact Or.inr (Or.inl hv')
    · by_cases hvb : v = b
      · exact Or.inr (Or.inl hvb)
      · exact Or.inr (Or.inr (hlt hb hv (Ne.symm hvb) (hsorted.2.1 v hv')))
  · intro vs' hperm
    rw [pickPair, pickPair, sortBy_lruCmp_perm hnd hperm]

theorem pickPair_lru_three :
    pickPair [⟨"c", some "2026-05-07T12:34:56Z", none, "r1"⟩, ⟨"b", none, none, "r1"⟩,
      ⟨"a", some "2026-05-07T12:34:56Z", none, "r1"⟩] "2026-05-07T12:00:00Z"
      = pickPair [⟨"a", some "2026-05-07T12:34:56Z", none, "r1"⟩,
        ⟨"c", some "2026-05-07T12:34:56Z", none, "r1"⟩, ⟨"b", none, none, "r1"⟩]
        "2026-05-07T12:00:00Z" :=
  (pickPair_lru (by decide) (by decide) _).2.2 _ (by decide)

/-! ### Cutoffs -/

lemma isSome_pickPair_iff {vs : List NodeView} {cutoff : String} :
    (pickPair vs cutoff).isSome ↔ 2 ≤ vs.length ∧
      ∃ v ∈ vs, ∀ t, v.lastAt = some t → t < cutoff := by
  by_cases h : 2 ≤ vs.length
  · have hnone := (pickPair_eq_none_iff h cutoff).not
    rw [Option.isSome_iff_ne_none, ne_eq, hnone]
    push Not
    exact (and_iff_right h).symm
  · have hnone : ¬ (pickPair vs cutoff).isSome := by
      intro hsome
      obtain ⟨p, hp⟩ := Option.isSome_iff_exists.mp hsome
      exact h (two_le_length_of_pickPair hp)
    simp [h, hnone]

lemma isSome_pickLoopback_iff {vs : List NodeView} {cutoff : String} :
    (pickLoopback vs cutoff).isSome ↔
      ∃ v, vs = [v] ∧ ∀ t, v.lastLoopbackAt = some t → t < cutoff := by
  rw [Option.isSome_iff_exists]
  exact exists_congr fun v => pickLoopback_eq_some_iff

/-- The subtraction of `now_minus_secs` stays in `i64`. -/
def CutoffFits (now secs : ℕ) : Prop := (signed 64 (asI64 now - asI64 secs)).isSome

instance (now secs : ℕ) : Decidable (CutoffFits now secs) :=
  inferInstanceAs (Decidable (_ = true))

/-- The timestamps of a member are those of instants in `stamps`. -/
def StampsIn (stamps : Set ℤ) (v : NodeView) : Prop :=
  ∀ t, v.lastAt = some t ∨ v.lastLoopbackAt = some t → ∃ x ∈ stamps, t = rfc3339At x

/-- **A longer cadence makes no more work**: the cadence `c` picks from no rack from which a
shorter one does not, and no cutoff overflows. -/
def LongerIsRarer (stamps : Set ℤ) (now c : ℕ) : Prop :=
  ∀ c' ≤ c, CutoffFits now c' ∧ CutoffFits now c ∧
    ∀ vs : List NodeView, (∀ v ∈ vs, StampsIn stamps v) →
      ((pickPair vs (nowMinusSecs now c)).isSome → (pickPair vs (nowMinusSecs now c')).isSome) ∧
      ((pickLoopback vs (nowMinusSecs now c)).isSome →
        (pickLoopback vs (nowMinusSecs now c')).isSome)

section Stamps

variable {stamps : Set ℤ} {now c : ℕ}

/-- Fewer stamps are older than a smaller cutoff. -/
lemma picks_of_stamps_lt {vs : List NodeView} {s s' : String}
    (hvs : ∀ v ∈ vs, StampsIn stamps v)
    (h : ∀ x ∈ stamps, rfc3339At x < s → rfc3339At x < s') :
    ((pickPair vs s).isSome → (pickPair vs s').isSome) ∧
      ((pickLoopback vs s).isSome → (pickLoopback vs s').isSome) := by
  rw [isSome_pickPair_iff, isSome_pickPair_iff, isSome_pickLoopback_iff, isSome_pickLoopback_iff]
  constructor
  · rintro ⟨hlen, v, hv, hlt⟩
    refine ⟨hlen, v, hv, fun t ht => ?_⟩
    obtain ⟨x, hx, rfl⟩ := hvs v hv t (Or.inl ht)
    exact h x hx (hlt _ ht)
  · rintro ⟨v, rfl, hlt⟩
    refine ⟨v, rfl, fun t ht => ?_⟩
    obtain ⟨x, hx, rfl⟩ := hvs v List.mem_cons_self t (Or.inr ht)
    exact h x hx (hlt _ ht)

/-- Two nodes of a rack that were probed at the same time. -/
def probedTogether (t : String) : List NodeView :=
  [⟨"a", some t, none, "r1"⟩, ⟨"b", some t, none, "r1"⟩]

lemma isSome_pickPair_probedTogether {t cutoff : String} :
    (pickPair (probedTogether t) cutoff).isSome ↔ t < cutoff := by
  rw [isSome_pickPair_iff]
  simp [probedTogether]

/-- What the law says about the cutoffs. -/
lemma longerIsRarer_iff :
    LongerIsRarer stamps now c ↔ ∀ c' ≤ c, CutoffFits now c' ∧ CutoffFits now c ∧
      ∀ x ∈ stamps, rfc3339At x < nowMinusSecs now c → rfc3339At x < nowMinusSecs now c' := by
  refine forall₂_congr fun c' hc' => and_congr_right fun _ => and_congr_right fun _ => ?_
  constructor
  · intro h x hx hlt
    have hstamped : ∀ v ∈ probedTogether (rfc3339At x), StampsIn stamps v := by
      intro v hv t ht
      refine ⟨x, hx, ?_⟩
      simp only [probedTogether, List.mem_cons, List.not_mem_nil, or_false] at hv
      rcases hv with rfl | rfl <;> simpa [eq_comm] using ht
    have hpick := (h _ hstamped).1
    rw [isSome_pickPair_probedTogether, isSome_pickPair_probedTogether] at hpick
    exact hpick hlt
  · intro h vs hvs
    exact picks_of_stamps_lt hvs h

/-! ### The conversion of the cadence -/

lemma cutoffFits_of_lt (hnow : (now : ℤ) < yearTenThousand) (hc : c < 2 ^ 63) :
    CutoffFits now c := by
  simp only [yearTenThousand] at hnow
  rw [CutoffFits, asI64_of_lt (by omega), asI64_of_lt hc, isSome_signed_iff]
  omega

lemma bmod_of_ge {n m : ℕ} (h : (m + 1) / 2 ≤ n) (h' : n < m) : Int.bmod n m = n - m := by
  have hmod : (n : ℤ) % m = n := Int.emod_eq_of_lt (by omega) (by omega)
  rw [Int.bmod_neg _ _ (by omega), hmod]

/-- The cast makes huge cadences negative. -/
lemma asI64_of_ge (hc : 2 ^ 63 ≤ c) (hc' : c < 2 ^ 64) : asI64 c = c - 2 ^ 64 := by
  have hcast : asI64 c = c - (2 ^ 64 : ℕ) := bmod_of_ge (by omega) hc'
  omega

/-- From `2^63` seconds on the cutoff lies in the future, if it does not overflow. -/
lemma nowMinusSecs_of_ge (hnow : (now : ℤ) < yearTenThousand) (hc : 2 ^ 63 ≤ c)
    (hc' : c < 2 ^ 64) (hfits : CutoffFits now c) :
    nowMinusSecs now c = rfc3339At (now + (2 ^ 64 - c)) := by
  simp only [yearTenThousand] at hnow
  have hcast := asI64_of_ge hc hc'
  rw [CutoffFits, isSome_signed_iff, asI64_of_lt (by omega), hcast] at hfits
  have hsub : Int.bmod (asI64 now - asI64 c) (2 ^ 64) = now + (2 ^ 64 - c) := by
    rw [asI64_of_lt (by omega), hcast]
    refine (Int.bmod_eq_of_le ?_ ?_).trans ?_ <;> omega
  exact congrArg rfc3339At hsub

/-- If the law holds, the cutoff is not after the stamps that a shorter cadence has for its
own cutoff: nodes that were last probed then would be probed again. -/
lemma LongerIsRarer.not_stamp_lt (h : LongerIsRarer stamps now c)
    (hnow : (now : ℤ) < yearTenThousand) (c' : ℕ) (hle : c' ≤ c) (hc' : c' < 2 ^ 63)
    (hmem : (now : ℤ) - c' ∈ stamps) : ¬ rfc3339At (now - c') < nowMinusSecs now c := by
  intro hlt
  obtain ⟨-, -, hstamps⟩ := longerIsRarer_iff.mp h c' hle
  have hstamp := hstamps _ hmem hlt
  rw [nowMinusSecs_eq hnow hc'] at hstamp
  exact String.lt_irrefl _ hstamp

/-- **A huge cadence makes more work.** -/
lemma not_longerIsRarer_of_ge (hnow : (now : ℤ) < yearTenThousand) (hzero : yearZero ∈ stamps)
    (hc : 2 ^ 63 ≤ c) (hc' : c < 2 ^ 64) : ¬ LongerIsRarer stamps now c := by
  intro h
  have hnow' := hnow
  simp only [yearTenThousand] at hnow'
  have hcut : (now : ℤ) - (now + 62167219200 : ℕ) = yearZero := by
    simp only [yearZero]
    omega
  obtain ⟨-, hfits, -⟩ := longerIsRarer_iff.mp h 0 (by omega)
  have hnot := h.not_stamp_lt hnow (now + 62167219200) (by omega) (by omega)
    (hcut ▸ hzero)
  rw [hcut, nowMinusSecs_of_ge hnow hc hc' hfits] at hnot
  exact hnot (rfc3339At_yearZero_lt (by omega))

/-- Below `2^63` the law is one about the order of timestamps. -/
lemma longerIsRarer_of_lt (hnow : (now : ℤ) < yearTenThousand) (hc : c < 2 ^ 63)
    (h : ∀ c' ≤ c, ∀ x ∈ stamps, rfc3339At x < rfc3339At (now - c) →
      rfc3339At x < rfc3339At (now - c')) : LongerIsRarer stamps now c := by
  refine longerIsRarer_iff.mpr fun c' hc' => ⟨cutoffFits_of_lt hnow (by omega),
    cutoffFits_of_lt hnow hc, fun x hx hlt => ?_⟩
  rw [nowMinusSecs_eq hnow (by omega)] at hlt ⊢
  exact h c' hc' x hx hlt

end Stamps

/-- **When a longer cadence makes no more work**: for stamps of any instant, when the cutoff is
not before the year `-1`, where the order of timestamps ends; for stamps of the years `0` to
`9999`, when the cadence is below `2^63`. -/
theorem longerIsRarer_cases {now c : ℕ} (hnow : (now : ℤ) < yearTenThousand) (hc : c < 2 ^ 64) :
    (LongerIsRarer {x | -2 ^ 63 ≤ x ∧ x < 2 ^ 63} now c ↔ (c : ℤ) ≤ now - yearMinusOne) ∧
    (LongerIsRarer {x | yearZero ≤ x ∧ x < yearTenThousand} now c ↔ c < 2 ^ 63) := by
  have hnow' := hnow
  simp only [yearTenThousand] at hnow'
  constructor
  · constructor
    · intro h
      by_contra hlt
      simp only [yearMinusOne] at hlt
      have hhuge : c < 2 ^ 63 := by
        by_contra hge
        exact not_longerIsRarer_of_ge hnow (by decide) (by omega) hc h
      have hcut : (now : ℤ) - (now + 62198755200 : ℕ) = yearMinusOne := by
        simp only [yearMinusOne]
        omega
      have hnot := h.not_stamp_lt hnow (now + 62198755200) (by omega) (by omega)
        (by rw [hcut]; decide)
      rw [hcut, nowMinusSecs_eq hnow hhuge] at hnot
      exact hnot (rfc3339At_yearMinusOne_lt (by simp only [yearMinusOne]; omega))
    · intro h
      have hsmall : c < 2 ^ 63 := by simp only [yearMinusOne] at h; omega
      refine longerIsRarer_of_lt hnow hsmall fun c' hc' x _ hlt => ?_
      exact hlt.trans_le (rfc3339At_le_of_yearMinusOne_le (by omega) (by omega) (by omega))
  · constructor
    · intro h
      by_contra hge
      exact not_longerIsRarer_of_ge hnow (by decide) (by omega) hc h
    · intro hsmall
      refine longerIsRarer_of_lt hnow hsmall fun c' hc' x hx hlt => ?_
      have hx' : x < now - c := lt_of_rfc3339At_lt hx.1 hx.2 hlt
      exact rfc3339At_lt (by omega) (hx.1.trans (by omega)) (by omega)

/-- At the cadence of ten years neither bound is reached. -/
theorem longerIsRarer_cases_tenYears :
    LongerIsRarer {x | -2 ^ 63 ≤ x ∧ x < 2 ^ 63} 1778157296 315360000 :=
  (longerIsRarer_cases (by decide) (by decide)).1.mpr (by decide)

/-- The longest cadence probes again two nodes that were probed this second, which a cadence
of zero does not; the cadence `2^63` overflows. -/
theorem longest_cadence_picks :
    CutoffFits 1778157296 (2 ^ 64 - 1) ∧
    (pickPair (probedTogether (nowRfc3339 1778157296))
      (nowMinusSecs 1778157296 (2 ^ 64 - 1))).isSome ∧
    pickPair (probedTogether (nowRfc3339 1778157296)) (nowMinusSecs 1778157296 0) = none ∧
    ¬ CutoffFits 1778157296 (2 ^ 63) := by
  decide +kernel

end Accelrd.Prober
