import Mathlib.Tactic
import Mathlib.Data.List.Sort
import Mathlib.Data.String.Basic
import Accelrd.Library.Lru
import Accelrd.Library.Rollup
import Accelrd.Kube
import Accelrd.Prober.Annotations

/-!
`src/prober/pair.rs`: which nodes are probed next.

* `eligible`, `groupByRack`, `pickLoopback`, `pickPair`: the code.
* `getElem?_groupByRack`: grouping partitions the eligible nodes by their rack.
* `pickPair_names`: `pickPair` is one cycle of the least-recently-used schedule of
  `Lru`, on the slots of the members. This is where its comparator, its sort and
  its cadence guard are unfolded; everything later is about `Lru.pick`.
* `pickPair_eq_some`, `pickPair_guard`, `pickLoopback_eq_some_iff`: what a pick
  says about the members.
-/

namespace Accelrd.Prober

open Std Kube

/-! ### The code -/

/-- `RACK_LABEL`. -/
def rackLabel : String := "accel-topo.lunnova.dev/rack"

/-- `RDMA_LABEL`. -/
def rdmaLabel : String := "accel-net.lunnova.dev/rdma"

/-- `RDMA_PRESENT`. -/
def rdmaPresent : String := "present"

/-- `NODE_READY_TYPE`. -/
def nodeReadyType : String := "Ready"

/-- `NODE_READY_STATUS`. -/
def nodeReadyStatus : String := "True"

/-- `NodeView`. -/
structure NodeView where
  name : String
  lastAt : Option String
  lastLoopbackAt : Option String
  rack : String
  deriving DecidableEq

/-- `is_ready`. -/
def isReady (node : Node) : Bool :=
  match node.status with
  | none => false
  | some status =>
      match status.conditions with
      | none => false
      | some conditions =>
          conditions.any fun c => c.type_ = nodeReadyType ∧ c.status = nodeReadyStatus

/-- `NodeView::from_node`. -/
def NodeView.fromNode (n : Node) : Option NodeView := do
  let name ← n.metadata.name
  let labels ← n.metadata.labels
  let rack ← labels[rackLabel]?
  if labels[rdmaLabel]? ≠ some rdmaPresent then
    none
  else
    let annotations := n.metadata.annotations
    let lastAt := annotations.bind (·[annLastAt]?)
    let lastLoopbackAt := annotations.bind (·[annLbLastAt]?)
    some { name, lastAt, lastLoopbackAt, rack }

/-- `eligible`. -/
def eligible (nodes : List Node) : List NodeView :=
  (nodes.filter isReady).filterMap NodeView.fromNode

/-- `slice::sort_by`. The sort is stable. -/
def sortBy {α : Type} (cmp : α → α → Ordering) (l : List α) : List α :=
  l.insertionSort fun a b => cmp a b ≠ .gt

/-- The comparison of `group_by_rack`. -/
def nameCmp (a b : NodeView) : Ordering := compare a.name b.name

/-- `out.entry(n.rack.clone()).or_default().push(n)`. -/
def pushMember (out : ExtTreeMap String (List NodeView)) (n : NodeView) :
    ExtTreeMap String (List NodeView) :=
  out.alter n.rack fun members => some (members.getD [] ++ [n])

/-- `group_by_rack`. -/
def groupByRack (nodes : List NodeView) : ExtTreeMap String (List NodeView) :=
  (nodes.foldl pushMember ∅).map fun _ members => sortBy nameCmp members

/-- `pick_loopback`. -/
def pickLoopback (members : List NodeView) (cutoff : String) : Option NodeView :=
  match members with
  | [only] =>
      match only.lastLoopbackAt with
      | some at_ => if at_ ≥ cutoff then none else some only
      | none => some only
  | _ => none

/-- The comparison of `pick_pair`. -/
def lruCmp (a b : NodeView) : Ordering :=
  match a.lastAt, b.lastAt with
  | none, none => compare a.name b.name
  | none, some _ => .lt
  | some _, none => .gt
  | some x, some y => (compare x y).then (compare a.name b.name)

/-- `pick_pair`. -/
def pickPair (members : List NodeView) (cutoff : String) : Option (NodeView × NodeView) :=
  match sortBy lruCmp members with
  | oldest :: next :: _ =>
      match oldest.lastAt, next.lastAt with
      | some a, some b => if min a b ≥ cutoff then none else some (oldest, next)
      | _, _ => some (oldest, next)
  | _ => none

/-! ### Eligible nodes -/

/-- What the code asks of a node before it considers it. -/
lemma fromNode_eq_some_iff {n : Node} {v : NodeView} :
    NodeView.fromNode n = some v ↔
      n.metadata.name = some v.name ∧ n.metadata.labelAt rackLabel = some v.rack ∧
        n.metadata.labelAt rdmaLabel = some rdmaPresent ∧
        v.lastAt = n.metadata.annotationAt annLastAt ∧
        v.lastLoopbackAt = n.metadata.annotationAt annLbLastAt := by
  obtain ⟨⟨name, labels, annotations⟩, status⟩ := n
  have hann (k : String) : annotations.bind (·[k]?) = (annotations.getD ∅)[k]? := by
    cases annotations <;> simp
  cases name with
  | none => simp [NodeView.fromNode]
  | some name =>
      cases labels with
      | none => simp [NodeView.fromNode, ObjectMeta.labelAt]
      | some labels =>
          cases hr : labels[rackLabel]? with
          | none => simp [NodeView.fromNode, ObjectMeta.labelAt, hr]
          | some rack =>
              simp only [NodeView.fromNode, ObjectMeta.labelAt, ObjectMeta.annotationAt, hann, hr,
                Option.bind_eq_bind, Option.bind_some, Option.getD_some, Option.some.injEq]
              split_ifs with hrdma
              · simp [hrdma]
              · obtain ⟨vname, vlast, vloop, vrack⟩ := v
                grind

lemma mem_eligible {nodes : List Node} {v : NodeView} :
    v ∈ eligible nodes ↔ ∃ n ∈ nodes, isReady n ∧ NodeView.fromNode n = some v := by
  simp [eligible, and_assoc]

/-- The nodes have different names. -/
def DistinctNames (nodes : List Node) : Prop := (nodes.filterMap (·.metadata.name)).Nodup

instance (nodes : List Node) : Decidable (DistinctNames nodes) :=
  inferInstanceAs (Decidable (List.Nodup _))

/-- Dropping some of the entries a `filterMap` finds. -/
lemma filterMap_sublist_filterMap {α β : Type} {f g : α → Option β}
    (h : ∀ x y, f x = some y → g x = some y) (l : List α) :
    (l.filterMap f).Sublist (l.filterMap g) := by
  induction l with
  | nil => exact List.Sublist.refl _
  | cons x l ih =>
      cases hf : f x with
      | some y =>
          rw [List.filterMap_cons_some hf, List.filterMap_cons_some (h x y hf)]
          exact ih.cons_cons y
      | none =>
          rw [List.filterMap_cons_none hf]
          exact ih.trans ((List.sublist_cons_self x l).filterMap g)

lemma map_name_eligible_sublist (nodes : List Node) :
    ((eligible nodes).map (·.name)).Sublist (nodes.filterMap (·.metadata.name)) := by
  rw [eligible, List.map_filterMap, List.filterMap_filter]
  refine filterMap_sublist_filterMap (fun n name hn => ?_) nodes
  split_ifs at hn
  obtain ⟨v, hv, rfl⟩ := Option.map_eq_some_iff.mp hn
  exact (fromNode_eq_some_iff.mp hv).1

lemma DistinctNames.eligible {nodes : List Node} (h : DistinctNames nodes) :
    ((eligible nodes).map (·.name)).Nodup := h.sublist (map_name_eligible_sublist nodes)

/-! ### Sorting -/

lemma sortBy_perm {α : Type} (cmp : α → α → Ordering) (l : List α) : (sortBy cmp l).Perm l :=
  List.perm_insertionSort _ l

/-- A sort commutes with a map that the comparison does not see. -/
lemma sortBy_map {α β : Type} {cmp : α → α → Ordering} {cmp' : β → β → Ordering} {f : α → β}
    (hcmp : ∀ a b, cmp' (f a) (f b) = cmp a b) (l : List α) :
    sortBy cmp' (l.map f) = (sortBy cmp l).map f := by
  rw [sortBy, sortBy]
  exact (List.map_insertionSort _ _ _ _ fun a _ b _ => by simp [hcmp]).symm

/-- A sort by the order of `f`, seen through `f`. -/
lemma map_sortBy {α β : Type} [LinearOrder β] {cmp : α → α → Ordering} {f : α → β}
    (hcmp : ∀ a b, cmp a b ≠ .gt ↔ f a ≤ f b) (l : List α) :
    (sortBy cmp l).map f = (l.map f).insertionSort (· ≤ ·) := by
  rw [sortBy]
  exact List.map_insertionSort _ _ _ _ fun a _ b _ => by simpa using hcmp a b

/-! ### Racks -/

/-- The racks of the code are the buckets of the nodes under their rack labels. -/
lemma foldl_pushMember (nodes : List NodeView) :
    nodes.foldl pushMember ∅ = Rollup.buckets (nodes.map fun n => (n.rack, n)) := by
  rw [Rollup.buckets, List.foldl_map]
  rfl

lemma valuesOf_rack (nodes : List NodeView) (r : String) :
    Rollup.valuesOf (nodes.map fun n => (n.rack, n)) r = nodes.filter (·.rack = r) := by
  rw [Rollup.valuesOf, List.filter_map, List.map_map]
  exact List.map_id _

/-- The members of a rack, in the order of the code. -/
def members (nodes : List Node) (r : String) : List NodeView :=
  sortBy nameCmp ((eligible nodes).filter (·.rack = r))

/-- **Grouping is a partition**: the group of a rack consists of the eligible nodes
with this rack label. -/
theorem getElem?_groupByRack (nodes : List Node) (r : String) :
    (groupByRack (eligible nodes))[r]? =
      if members nodes r = [] then none else some (members nodes r) := by
  have hnil : members nodes r = [] ↔ (eligible nodes).filter (·.rack = r) = [] := by
    rw [← List.length_eq_zero_iff, members, (sortBy_perm _ _).length_eq, List.length_eq_zero_iff]
  rw [groupByRack, ExtTreeMap.getElem?_map, foldl_pushMember, Rollup.getElem?_buckets,
    valuesOf_rack]
  simp only [hnil]
  split_ifs
  · simp
  · simp [members]

lemma members_perm (nodes : List Node) (r : String) :
    (members nodes r).Perm ((eligible nodes).filter (·.rack = r)) := sortBy_perm _ _

lemma mem_members {nodes : List Node} {r : String} {v : NodeView} :
    v ∈ members nodes r ↔ v ∈ eligible nodes ∧ v.rack = r := by
  rw [(members_perm nodes r).mem_iff]
  simp

lemma DistinctNames.members {nodes : List Node} (h : DistinctNames nodes) (r : String) :
    ((members nodes r).map (·.name)).Nodup := by
  rw [((members_perm nodes r).map _).nodup_iff]
  exact h.eligible.sublist (List.filter_sublist.map _)

/-! ### `pick_pair` is a cycle of the least-recently-used schedule -/

/-- A timestamp in the order of the schedule: a missing one is infinitely old. -/
def stampOf : Option String → WithBot String
  | none => ⊥
  | some t => t

/-- What the schedule sees of a member. -/
def NodeView.slot (v : NodeView) : Lru.Slot String String := Lru.Slot.mk (stampOf v.lastAt) v.name

lemma map_name_slot (vs : List NodeView) :
    (vs.map NodeView.slot).map Lru.Slot.name = vs.map (·.name) := by
  rw [List.map_map]
  rfl

lemma then_compare_ne_gt_iff {x y a b : String} :
    (compare x y).then (compare a b) ≠ .gt ↔ x < y ∨ (x = y ∧ a ≤ b) := by
  rcases Std.lt_trichotomy x y with h | rfl | h
  · simp only [compare_lt_iff_lt.mpr h, Ordering.then, h, true_or, iff_true]
    decide
  · simp only [compare_self, Ordering.then, String.lt_irrefl, true_and, false_or]
    exact compare_le_iff_le
  · have hlt : ¬ x < y := h.not_gt
    simp only [compare_gt_iff_gt.mpr h, Ordering.then, hlt, h.ne', false_and, or_self, iff_false]
    simp

/-- The comparison of the code is the order of the slots. -/
lemma lruCmp_ne_gt_iff (a b : NodeView) : lruCmp a b ≠ .gt ↔ a.slot ≤ b.slot := by
  rw [NodeView.slot, NodeView.slot, Lru.Slot.mk_le_mk, lruCmp]
  cases a.lastAt with
  | none =>
      cases b.lastAt with
      | none => simp [stampOf, compare_le_iff_le]
      | some y => simp [stampOf]
  | some x =>
      cases b.lastAt with
      | none => simp [stampOf]
      | some y => simpa [stampOf] using then_compare_ne_gt_iff

lemma map_slot_sortBy (vs : List NodeView) :
    (sortBy lruCmp vs).map NodeView.slot = Lru.order (vs.map NodeView.slot) :=
  map_sortBy lruCmp_ne_gt_iff vs

/-- The guard of the code looks at the older one of the two, which is the first. -/
lemma guard_iff {a b : NodeView} {cutoff : String} (h : a.slot ≤ b.slot) :
    (match a.lastAt, b.lastAt with
      | some x, some y => if min x y ≥ cutoff then none else some (a, b)
      | _, _ => some (a, b)) = if a.slot.last < cutoff then some (a, b) else none := by
  have hle : stampOf a.lastAt ≤ stampOf b.lastAt := Lru.Slot.last_le h
  change _ = if stampOf a.lastAt < cutoff then some (a, b) else none
  cases ha : a.lastAt with
  | none => simp [stampOf]
  | some x =>
      cases hb : b.lastAt with
      | none =>
          rw [ha, hb] at hle
          simp [stampOf] at hle
      | some y =>
          rw [ha, hb] at hle
          have hxy : x ≤ y := by simpa [stampOf] using hle
          change (if min x y ≥ cutoff then none else some (a, b))
            = if (x : WithBot String) < cutoff then some (a, b) else none
          simp only [min_eq_left hxy, WithBot.coe_lt_coe]
          grind

/-- **`pick_pair` is one cycle of the schedule**: seen by name, it picks what
`Lru.pick` picks from the slots of the members. -/
theorem pickPair_names (vs : List NodeView) (cutoff : String) :
    (pickPair vs cutoff).map (fun p => (p.1.name, p.2.name))
      = Lru.pick cutoff (vs.map NodeView.slot) := by
  have hsorted := Lru.order_sorted (vs.map NodeView.slot)
  unfold pickPair Lru.pick
  rw [← map_slot_sortBy] at hsorted ⊢
  generalize sortBy lruCmp vs = sorted at hsorted ⊢
  rcases sorted with _ | ⟨a, _ | ⟨b, rest⟩⟩
  · rfl
  · rfl
  · have hab : a.slot ≤ b.slot := (List.pairwise_cons.mp hsorted).1 _ List.mem_cons_self
    calc _ = Option.map (fun p => (p.1.name, p.2.name))
          (if a.slot.last < cutoff then some (a, b) else none) := by rw [← guard_iff hab]
      _ = _ := by
        simp only [List.map_cons]
        split_ifs <;> rfl

/-- What a pick says: two members, taken from the front of the sorted rack. -/
lemma pickPair_eq_some {vs : List NodeView} {cutoff : String} {a b : NodeView}
    (h : pickPair vs cutoff = some (a, b)) :
    ∃ rest, sortBy lruCmp vs = a :: b :: rest := by
  rw [pickPair] at h
  split at h
  · rename_i x y rest hsort
    have hxy : (x, y) = (a, b) := by
      split at h
      · split_ifs at h
        exact Option.some.inj h
      · exact Option.some.inj h
    obtain ⟨rfl, rfl⟩ := Prod.mk.inj hxy
    exact ⟨rest, hsort⟩
  · simp at h

/-- The cadence guard: one of the two is past the cutoff, if both have a timestamp. -/
lemma pickPair_guard {vs : List NodeView} {cutoff ta tb : String} {a b : NodeView}
    (h : pickPair vs cutoff = some (a, b)) (ha : a.lastAt = some ta) (hb : b.lastAt = some tb) :
    ta < cutoff ∨ tb < cutoff := by
  have hpick := h
  obtain ⟨rest, hsort⟩ := pickPair_eq_some h
  simp only [pickPair, hsort, ha, hb] at hpick
  split_ifs at hpick with hguard
  exact min_lt_iff.mp (lt_of_not_ge hguard)

lemma pickPair_mem {vs : List NodeView} {cutoff : String} {a b : NodeView}
    (h : pickPair vs cutoff = some (a, b)) : a ∈ vs ∧ b ∈ vs := by
  obtain ⟨rest, hsort⟩ := pickPair_eq_some h
  rw [← (sortBy_perm lruCmp vs).mem_iff, ← (sortBy_perm lruCmp vs).mem_iff, hsort]
  simp

/-- The two nodes of a pick are different. -/
lemma pickPair_ne {vs : List NodeView} {cutoff : String} {a b : NodeView}
    (hnd : (vs.map (·.name)).Nodup) (h : pickPair vs cutoff = some (a, b)) : a.name ≠ b.name := by
  obtain ⟨rest, hsort⟩ := pickPair_eq_some h
  have hnd' := ((sortBy_perm lruCmp vs).map (·.name)).nodup_iff.mpr hnd
  rw [hsort] at hnd'
  simp only [List.map_cons, List.nodup_cons, List.mem_cons, not_or] at hnd'
  exact hnd'.1.1

lemma two_le_length_of_pickPair {vs : List NodeView} {cutoff : String} {p : NodeView × NodeView}
    (h : pickPair vs cutoff = some p) : 2 ≤ vs.length := by
  obtain ⟨rest, hsort⟩ := pickPair_eq_some (a := p.1) (b := p.2) h
  rw [← (sortBy_perm lruCmp vs).length_eq, hsort]
  simp

lemma pickLoopback_eq_some_iff {vs : List NodeView} {cutoff : String} {v : NodeView} :
    pickLoopback vs cutoff = some v ↔
      vs = [v] ∧ ∀ at_, v.lastLoopbackAt = some at_ → at_ < cutoff := by
  rcases vs with _ | ⟨only, _ | ⟨w, rest⟩⟩
  · simp [pickLoopback]
  · cases h : only.lastLoopbackAt with
    | none => simp only [pickLoopback, h]; grind
    | some t => simp only [pickLoopback, h]; grind
  · simp [pickLoopback]

/-- A Ready node with RDMA in the given rack, never probed. -/
def rdmaNode (name rack : String) : Node where
  metadata := {
    name := some name
    labels := some (ExtTreeMap.ofList [(rackLabel, rack), (rdmaLabel, rdmaPresent)]) }
  status := some { conditions := some [{ type_ := nodeReadyType, status := nodeReadyStatus }] }

example : (pickPair (members [rdmaNode "c" "r1", rdmaNode "a" "r1", rdmaNode "b" "r2"] "r1")
    "2026-05-07T12:00:00Z").map (fun p => (p.1.name, p.2.name)) = some ("a", "c") := by decide

end Accelrd.Prober
