import Mathlib.Tactic
import Accelrd.Library.Sorting
import Accelrd.Library.Utf8
import Accelrd.Prober.Cadence
import Accelrd.Prober.Orphans
import Accelrd.Admin.Node

/-!
`probes` of `src/admin/routes.rs`, and the places that compare timestamps as strings: this
route, `pick_pair` and `pick_loopback`, and `cleanup_orphans`.

* `probes`: the route.
* `pickPairAt`, `pickLoopbackAt`: the two picks as they would be with instants for timestamps.
* `timestamps_chronological`: in the years `0` to `9999` the strings are in the order of time,
  and each of these places decides as if it compared instants.
-/

namespace Accelrd.Admin

open Prober Time

/-! ### The route -/

/-- `ProbeRow`. -/
structure ProbeRow where
  node : String
  rack : Option String
  at_ : Option String
  bandwidthGbps : Option Binary64
  partner : Option String
  verdict : Option String
  source : VerdictSource
  reason : Option String

/-- The row of a node, if it has been probed. -/
def probeRow (n : NodeView) : Option ProbeRow :=
  n.lastProbe.map fun p =>
    { node := n.name
      rack := n.rack
      at_ := p.at_
      bandwidthGbps := p.bandwidthGbps
      partner := p.partner
      verdict := p.verdict
      source := p.source
      reason := p.reason }

/-- `b.at.cmp(&a.at)`. A missing timestamp is less than any other. -/
def newestFirst (a b : ProbeRow) : Ordering := compare b.at_ a.at_

/-- `probes`. -/
def probes (nodes : List NodeView) : List ProbeRow := sortBy newestFirst (nodes.filterMap probeRow)

/-! ### The order of strings is the order of time -/

/-- The instants of the years `0` to `9999`. -/
def FourDigits (x : ℤ) : Prop := yearZero ≤ x ∧ x < yearTenThousand

lemma rfc3339At_lt_iff {a b : ℤ} (ha : FourDigits a) (hb : FourDigits b) :
    rfc3339At a < rfc3339At b ↔ a < b :=
  ⟨lt_of_rfc3339At_lt ha.1 ha.2, fun h => rfc3339At_lt h hb.1 hb.2⟩

lemma rfc3339At_eq_iff {a b : ℤ} (ha : FourDigits a) (hb : FourDigits b) :
    rfc3339At a = rfc3339At b ↔ a = b := by
  refine ⟨fun h => ?_, congrArg rfc3339At⟩
  rcases lt_trichotomy a b with hlt | heq | hgt
  · exact absurd h ((rfc3339At_lt_iff ha hb).mpr hlt).ne
  · exact heq
  · exact absurd h ((rfc3339At_lt_iff hb ha).mpr hgt).ne'

lemma rfc3339At_ge_iff {a b : ℤ} (ha : FourDigits a) (hb : FourDigits b) :
    rfc3339At a ≥ rfc3339At b ↔ a ≥ b := by
  rw [ge_iff_le, ← not_lt, rfc3339At_lt_iff ha hb, not_lt]

lemma compare_rfc3339At {a b : ℤ} (ha : FourDigits a) (hb : FourDigits b) :
    compare (rfc3339At a) (rfc3339At b) = compare a b := by
  rcases lt_trichotomy a b with hlt | rfl | hgt
  · rw [compare_lt_iff_lt.mpr hlt, compare_lt_iff_lt]
    exact (rfc3339At_lt_iff ha hb).mpr hlt
  · exact (compare_eq_iff_eq.mpr rfl).trans (compare_eq_iff_eq.mpr rfl).symm
  · rw [compare_gt_iff_gt.mpr hgt, compare_gt_iff_gt]
    exact (rfc3339At_lt_iff hb ha).mpr hgt

/-- The timestamp `t` is that of the instant `x`; where one is missing, so is the other. -/
def StampOf (t : Option String) (x : Option ℤ) : Prop :=
  t = x.map rfc3339At ∧ ∀ y ∈ x, FourDigits y

lemma StampOf.compare_eq {t t' : Option String} {x x' : Option ℤ} (h : StampOf t x)
    (h' : StampOf t' x') : compare t t' = compare x x' := by
  obtain ⟨rfl, hx⟩ := h
  obtain ⟨rfl, hx'⟩ := h'
  cases x with
  | none => cases x' <;> rfl
  | some a =>
      cases x' with
      | none => rfl
      | some b => exact compare_rfc3339At (hx a rfl) (hx' b rfl)

/-! ### Decisions about instants -/

/-- The comparison of `pick_pair`, for instants. -/
def lruCmpAt (at_ : Prober.NodeView → Option ℤ) (a b : Prober.NodeView) : Ordering :=
  (compare (at_ a) (at_ b)).then (compare a.name b.name)

/-- `pick_pair`, for instants. -/
def pickPairAt (at_ : Prober.NodeView → Option ℤ) (members : List Prober.NodeView) (cutoff : ℤ) :
    Option (Prober.NodeView × Prober.NodeView) :=
  match sortBy (lruCmpAt at_) members with
  | oldest :: next :: _ =>
      match at_ oldest, at_ next with
      | some a, some b => if min a b ≥ cutoff then none else some (oldest, next)
      | _, _ => some (oldest, next)
  | _ => none

/-- `pick_loopback`, for instants. -/
def pickLoopbackAt (at_ : Prober.NodeView → Option ℤ) (members : List Prober.NodeView)
    (cutoff : ℤ) : Option Prober.NodeView :=
  match members with
  | [only] =>
      match at_ only with
      | some a => if a ≥ cutoff then none else some only
      | none => some only
  | _ => none

/-- A sort depends only on the comparisons of its elements. -/
lemma sortBy_congr {α : Type} {cmp cmp' : α → α → Ordering} {l : List α}
    (h : ∀ a ∈ l, ∀ b ∈ l, cmp a b = cmp' a b) : sortBy cmp l = sortBy cmp' l := by
  have hmap := List.map_insertionSort (fun a b => cmp a b ≠ .gt) (fun a b => cmp' a b ≠ .gt) id l
    fun a ha b hb => by rw [h a ha b hb]; rfl
  rwa [List.map_id, List.map_id] at hmap

section Picks

variable {at_ : Prober.NodeView → Option ℤ} {vs : List Prober.NodeView} {cutoff : ℤ}

lemma lruCmp_eq {a b : Prober.NodeView} (ha : StampOf a.lastAt (at_ a))
    (hb : StampOf b.lastAt (at_ b)) : lruCmp a b = lruCmpAt at_ a b := by
  rw [lruCmpAt, ← ha.compare_eq hb, lruCmp]
  cases a.lastAt <;> cases b.lastAt <;> rfl

lemma pickPair_eq_pickPairAt (hvs : ∀ v ∈ vs, StampOf v.lastAt (at_ v)) (hc : FourDigits cutoff) :
    pickPair vs (rfc3339At cutoff) = pickPairAt at_ vs cutoff := by
  have hsort := sortBy_congr fun a ha b hb => lruCmp_eq (hvs a ha) (hvs b hb)
  rw [pickPair, pickPairAt, hsort]
  rcases hfront : sortBy (lruCmpAt at_) vs with _ | ⟨a, _ | ⟨b, rest⟩⟩
  · rfl
  · rfl
  · have hmem : ∀ v ∈ a :: b :: rest, StampOf v.lastAt (at_ v) := by
      intro v hv
      rw [← hfront] at hv
      exact hvs v ((sortBy_perm _ _).mem_iff.mp hv)
    obtain ⟨ha, ha'⟩ := hmem a (by simp)
    obtain ⟨hb, hb'⟩ := hmem b (by simp)
    simp only [ha, hb]
    cases hx : at_ a with
    | none => rfl
    | some x =>
        cases hy : at_ b with
        | none => rfl
        | some y =>
            -- both have a timestamp, and the guard compares the older one
            have hguard : min (rfc3339At x) (rfc3339At y) ≥ rfc3339At cutoff ↔
                min x y ≥ cutoff := by
              rw [ge_iff_le, ge_iff_le, le_min_iff, le_min_iff]
              exact and_congr (rfc3339At_ge_iff (ha' x hx) hc) (rfc3339At_ge_iff (hb' y hy) hc)
            simp only [Option.map_some, hguard]

lemma pickLoopback_eq_pickLoopbackAt (hvs : ∀ v ∈ vs, StampOf v.lastLoopbackAt (at_ v))
    (hc : FourDigits cutoff) :
    pickLoopback vs (rfc3339At cutoff) = pickLoopbackAt at_ vs cutoff := by
  rcases vs with _ | ⟨only, _ | ⟨v, vs⟩⟩
  · rfl
  · obtain ⟨hat, hat'⟩ := hvs only List.mem_cons_self
    simp only [pickLoopback, pickLoopbackAt, hat]
    cases hx : at_ only with
    | none => rfl
    | some x => simp only [Option.map_some, rfc3339At_ge_iff (hat' x hx) hc]
  · rfl

end Picks

/-- Rows that are sorted by their instants: the latest first, those without one last. -/
def NewestFirst (at_ : ProbeRow → Option ℤ) (rows : List ProbeRow) : Prop :=
  rows.Pairwise fun a b => ∀ x, at_ b = some x → ∃ y, at_ a = some y ∧ x ≤ y

lemma newestFirst_sortBy (at_ : ProbeRow → Option ℤ) (rows : List ProbeRow) :
    NewestFirst at_ (sortBy (fun a b => compare (at_ b) (at_ a)) rows) := by
  have hcmp : Std.TransCmp fun a b : ProbeRow => compare (at_ b) (at_ a) :=
    inferInstanceAs (Std.TransCmp fun a b => compareOn at_ b a)
  refine (Sorting.pairwise_insertionSort_cmp rows).imp fun {a b} hab x hx => ?_
  rw [hx] at hab
  cases hy : at_ a with
  | none => exact absurd (by rw [hy]; rfl) hab
  | some y =>
      refine ⟨y, rfl, ?_⟩
      rw [hy] at hab
      exact not_lt.mp fun hlt => hab (compare_gt_iff_gt.mpr hlt)

/-- **Timestamps order like time**, as strings of bytes; and every comparison of timestamps is
one of instants. -/
structure Chronological : Prop where
  /-- The strings are in the order of time. -/
  order : ∀ a b : ℤ, FourDigits a → FourDigits b →
    (Utf8.bytes (rfc3339At a) < Utf8.bytes (rfc3339At b) ↔ a < b) ∧
    (rfc3339At a = rfc3339At b ↔ a = b)
  pick_pair : ∀ (at_ : Prober.NodeView → Option ℤ) (vs : List Prober.NodeView) (cutoff : ℤ),
    (∀ v ∈ vs, StampOf v.lastAt (at_ v)) → FourDigits cutoff →
      pickPair vs (rfc3339At cutoff) = pickPairAt at_ vs cutoff
  pick_loopback : ∀ (at_ : Prober.NodeView → Option ℤ) (vs : List Prober.NodeView) (cutoff : ℤ),
    (∀ v ∈ vs, StampOf v.lastLoopbackAt (at_ v)) → FourDigits cutoff →
      pickLoopback vs (rfc3339At cutoff) = pickLoopbackAt at_ vs cutoff
  /-- A pod is stale if it was created before the cutoff. -/
  cleanup_orphans : ∀ (pod : ProbePod) (cutoff : ℤ),
    (∀ x ∈ pod.creationTimestamp, FourDigits x) → FourDigits cutoff →
      (pod.stale (rfc3339At cutoff) ↔ ∃ x ∈ pod.creationTimestamp, x < cutoff)
  /-- The rows are those of the nodes, sorted by their instants. -/
  probes_sort : ∀ (at_ : ProbeRow → Option ℤ) (nodes : List NodeView),
    (∀ row ∈ nodes.filterMap probeRow, StampOf row.at_ (at_ row)) →
      probes nodes = sortBy (fun a b => compare (at_ b) (at_ a)) (nodes.filterMap probeRow) ∧
        (probes nodes).Perm (nodes.filterMap probeRow) ∧ NewestFirst at_ (probes nodes)

theorem timestamps_chronological : Chronological where
  order a b ha hb := by
    rw [Utf8.bytes_lt_iff]
    exact ⟨rfc3339At_lt_iff ha hb, rfc3339At_eq_iff ha hb⟩
  pick_pair _ _ _ hvs hc := pickPair_eq_pickPairAt hvs hc
  pick_loopback _ _ _ hvs hc := pickLoopback_eq_pickLoopbackAt hvs hc
  cleanup_orphans pod cutoff hpod hc := by
    rw [ProbePod.stale]
    cases h : pod.creationTimestamp with
    | none => simp
    | some x => simp [rfc3339At_lt_iff (hpod x h) hc]
  probes_sort at_ nodes hrows := by
    have hsort : probes nodes =
        sortBy (fun a b => compare (at_ b) (at_ a)) (nodes.filterMap probeRow) :=
      sortBy_congr fun a ha b hb => (hrows b hb).compare_eq (hrows a ha)
    exact ⟨hsort, sortBy_perm _ _, hsort ▸ newestFirst_sortBy at_ _⟩

end Accelrd.Admin
