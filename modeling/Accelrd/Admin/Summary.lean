import Mathlib.Tactic
import Accelrd.Library.Rollup
import Accelrd.Topology.Counts
import Accelrd.Admin.Node

/-!
`list_nodes` and `summarize` of `src/admin/k8s.rs`, and the route `cluster` of
`src/admin/routes.rs`: the cluster at a glance.

* `summarize`, `cluster`: the code.
* `Summarizes`: what a summary says about the nodes.
* `Publisher`: a node whose daemon has published a topology.
* `cluster_published`: the summary of such a fleet is that of its topologies.
-/

namespace Accelrd.Admin

open Std Kube Sensors Accelrd.Topology Rollup

/-! ### The code -/

/-- `RackSummary`. -/
structure RackSummary where
  nodes : List String
  healthyProbes : ℕ
  failedProbes : ℕ
  deriving DecidableEq

/-- `ClusterSummary`. -/
structure ClusterSummary where
  nodesTotal : ℕ
  nodesReady : ℕ
  racks : ExtTreeMap String RackSummary
  probeVerdicts : ExtTreeMap String ℕ
  vendorTotals : ExtTreeMap String ℕ

/-- `n.last_probe.as_ref().and_then(|p| p.verdict.as_deref())`. -/
def NodeView.verdict (n : NodeView) : Option String := n.lastProbe.bind (·.verdict)

/-- What a node does to the entry of its rack. -/
def RackSummary.add (r : RackSummary) (n : NodeView) : RackSummary :=
  let named : RackSummary := { r with nodes := r.nodes ++ [n.name] }
  match n.verdict with
  | some v =>
      if v = "pass" ∨ v = "ok" then { named with healthyProbes := r.healthyProbes + 1 }
      else { named with failedProbes := r.failedProbes + 1 }
  | none => named

/-- `+=` on a `u64`, in a release. -/
def addWrapping (total count : ℕ) : ℕ := (total + count) % 2 ^ 64

/-- The body of the loop of `summarize`. -/
def ClusterSummary.addNode (s : ClusterSummary) (n : NodeView) : ClusterSummary :=
  { s with
    racks := match n.rack with
      | some rack => accumulate RackSummary.add ⟨[], 0, 0⟩ s.racks (rack, n)
      | none => s.racks
    probeVerdicts := match n.verdict with
      | some v => addCount s.probeVerdicts v 1
      | none => s.probeVerdicts
    vendorTotals := n.vendorCounts.foldl
      (fun totals vendor count => accumulate addWrapping 0 totals (vendor, count)) s.vendorTotals }

/-- `summarize`. -/
def summarize (nodes : List NodeView) : ClusterSummary :=
  nodes.foldl ClusterSummary.addNode
    ⟨nodes.length, nodes.countP (·.ready), ∅, ∅, ∅⟩

/-- `ClusterResponse`. -/
structure ClusterResponse where
  nodes : List NodeView
  summary : ClusterSummary

/-- `list_nodes`. -/
def listNodes (items : List Node) : List NodeView := items.map NodeView.fromNode

/-- `cluster`. -/
def cluster (items : List Node) : ClusterResponse :=
  let nodes := listNodes items
  ⟨nodes, summarize nodes⟩

/-! ### One accumulator at a time -/

section Accumulators

variable (nodes : List NodeView) (s : ClusterSummary)

lemma nodesTotal_foldl_addNode :
    (nodes.foldl ClusterSummary.addNode s).nodesTotal = s.nodesTotal := by
  induction nodes generalizing s with
  | nil => rfl
  | cons n nodes ih => rw [List.foldl_cons, ih]; rfl

lemma nodesReady_foldl_addNode :
    (nodes.foldl ClusterSummary.addNode s).nodesReady = s.nodesReady := by
  induction nodes generalizing s with
  | nil => rfl
  | cons n nodes ih => rw [List.foldl_cons, ih]; rfl

lemma racks_foldl_addNode :
    (nodes.foldl ClusterSummary.addNode s).racks =
      (nodes.filterMap fun n => n.rack.map (·, n)).foldl
        (accumulate RackSummary.add ⟨[], 0, 0⟩) s.racks := by
  induction nodes generalizing s with
  | nil => rfl
  | cons n nodes ih =>
      rw [List.foldl_cons, ih, ClusterSummary.addNode]
      cases h : n.rack with
      | none => rw [List.filterMap_cons_none (by rw [h]; rfl)]
      | some rack => rw [List.filterMap_cons_some (by rw [h]; rfl), List.foldl_cons]

lemma probeVerdicts_foldl_addNode :
    (nodes.foldl ClusterSummary.addNode s).probeVerdicts =
      ((nodes.filterMap NodeView.verdict).map (·, 1)).foldl
        (fun counts e => addCount counts e.1 e.2) s.probeVerdicts := by
  induction nodes generalizing s with
  | nil => rfl
  | cons n nodes ih =>
      rw [List.foldl_cons, ih, ClusterSummary.addNode]
      cases h : n.verdict with
      | none => rw [List.filterMap_cons_none h]
      | some v => rw [List.filterMap_cons_some h, List.map_cons, List.foldl_cons]

lemma vendorTotals_foldl_addNode :
    (nodes.foldl ClusterSummary.addNode s).vendorTotals =
      (nodes.flatMap fun n => n.vendorCounts.toList).foldl (accumulate addWrapping 0)
        s.vendorTotals := by
  induction nodes generalizing s with
  | nil => rfl
  | cons n nodes ih =>
      rw [List.foldl_cons, ih, ClusterSummary.addNode, List.flatMap_cons, List.foldl_append,
        ExtTreeMap.foldl_eq_foldl_toList]

end Accumulators

/-- A verdict that counts as healthy. -/
def NodeView.isHealthy (n : NodeView) : Bool := n.verdict = some "pass" ∨ n.verdict = some "ok"

/-- Any other verdict. -/
def NodeView.isFailed (n : NodeView) : Bool := n.verdict.isSome && !n.isHealthy

/-- The entry of a rack with these members. -/
def entryOf (members : List NodeView) : RackSummary :=
  ⟨members.map NodeView.name, members.countP NodeView.isHealthy,
    members.countP NodeView.isFailed⟩

/-- What a list of nodes makes of an entry. -/
lemma foldl_add (members : List NodeView) (r : RackSummary) :
    members.foldl RackSummary.add r =
      ⟨r.nodes ++ (entryOf members).nodes, r.healthyProbes + (entryOf members).healthyProbes,
        r.failedProbes + (entryOf members).failedProbes⟩ := by
  induction members generalizing r with
  | nil => simp [entryOf]
  | cons n members ih =>
      rw [List.foldl_cons, ih, RackSummary.add]
      cases hv : n.verdict with
      | none => simp [entryOf, NodeView.isHealthy, NodeView.isFailed, hv]
      | some v =>
          by_cases hok : v = "pass" ∨ v = "ok" <;>
            simp [entryOf, NodeView.isHealthy, NodeView.isFailed, hv, hok, Nat.add_assoc,
              Nat.add_comm 1]

/-- A verdict is healthy or failed. -/
lemma entryOf_healthy_add_failed (members : List NodeView) :
    (entryOf members).healthyProbes + (entryOf members).failedProbes =
      members.countP (·.verdict.isSome) := by
  induction members with
  | nil => rfl
  | cons n members ih =>
      simp only [entryOf, List.countP_cons] at ih ⊢
      cases hv : n.verdict with
      | none => simp [NodeView.isHealthy, NodeView.isFailed, hv] at ih ⊢; omega
      | some v =>
          by_cases hok : v = "pass" ∨ v = "ok" <;>
            simp [NodeView.isHealthy, NodeView.isFailed, hv, hok] at ih ⊢ <;> omega

/-- Amounts that are added up with overflow. -/
lemma foldl_addWrapping (counts : List ℕ) {total : ℕ} (h : total < 2 ^ 64) :
    counts.foldl addWrapping total = (total + counts.sum) % 2 ^ 64 := by
  induction counts generalizing total with
  | nil => rw [List.sum_nil, Nat.add_zero, Nat.mod_eq_of_lt h]; rfl
  | cons c counts ih =>
      have hlt : addWrapping total c < 2 ^ 64 := Nat.mod_lt _ (by decide)
      rw [List.foldl_cons, ih hlt, addWrapping, List.sum_cons]
      omega

/-! ### A summary -/

/-- The counts of a vendor on the nodes that have one. -/
def countsOf (nodes : List NodeView) (v : String) : List ℕ :=
  nodes.filterMap fun n => n.vendorCounts[v]?

/-- What a summary says about the nodes: every node is counted once, in its rack and under
its verdict, and the accelerators of each vendor are added up over the nodes. -/
structure Summarizes (nodes : List NodeView) (s : ClusterSummary) : Prop where
  nodesTotal : s.nodesTotal = nodes.length
  nodesReady : s.nodesReady = nodes.countP (·.ready)
  racks : ∀ r, s.racks[r]? = if nodes.filter (·.rack = some r) = [] then none
    else some (entryOf (nodes.filter (·.rack = some r)))
  probeVerdicts : ∀ v, s.probeVerdicts[v]? = tally (nodes.filterMap NodeView.verdict) v
  vendorTotals : ∀ v, s.vendorTotals[v]? =
    if countsOf nodes v = [] then none else some ((countsOf nodes v).sum % 2 ^ 64)

lemma valuesOf_ones_map (words : List String) (k : String) :
    valuesOf (words.map (·, 1)) k = List.replicate (words.count k) 1 := by
  induction words with
  | nil => rfl
  | cons w words ih =>
      rw [List.map_cons, valuesOf_cons, ih, List.count_cons]
      by_cases hk : w = k
      · simp [hk, List.replicate_succ]
      · simp [hk]

lemma valuesOf_vendorCounts (nodes : List NodeView) (v : String) :
    valuesOf (nodes.flatMap fun n => n.vendorCounts.toList) v = countsOf nodes v := by
  induction nodes with
  | nil => rfl
  | cons n nodes ih =>
      rw [List.flatMap_cons, valuesOf_append, valuesOf_toList, ih, countsOf, countsOf,
        List.filterMap_cons]
      cases n.vendorCounts[v]? <;> rfl

/-- **The loop counts every node once.** -/
lemma summarizes_summarize (nodes : List NodeView) : Summarizes nodes (summarize nodes) where
  nodesTotal := nodesTotal_foldl_addNode nodes _
  nodesReady := nodesReady_foldl_addNode nodes _
  racks r := by
    rw [summarize, racks_foldl_addNode, getElem?_foldl_accumulate, valuesOf_filterMap_key,
      ExtTreeMap.getElem?_empty, foldl_add]
    simp [entryOf]
  probeVerdicts v := by
    rw [summarize, probeVerdicts_foldl_addNode, getElem?_foldl_addCount, valuesOf_ones_map, tally]
    simp
  vendorTotals v := by
    rw [summarize, vendorTotals_foldl_addNode, getElem?_foldl_accumulate, valuesOf_vendorCounts,
      ExtTreeMap.getElem?_empty, Option.getD_none, foldl_addWrapping _ (by decide), Nat.zero_add]

/-- Counts of words add up to their number. -/
lemma sum_of_tally {counts : ExtTreeMap String ℕ} {words : List String}
    (h : ∀ v, counts[v]? = tally words v) :
    (counts.toList.map Prod.snd).sum = words.length := by
  have hcounts : counts =
      (words.map (·, 1)).foldl (fun counts e => addCount counts e.1 e.2) ∅ := by
    refine ExtTreeMap.ext_getElem? fun v => ?_
    rw [h, getElem?_foldl_addCount, valuesOf_ones_map, tally]
    simp
  have hones : words.map (Prod.snd ∘ (·, 1)) = List.replicate words.length 1 := List.map_const'
  rw [hcounts, sum_foldl_addCount, List.map_map, hones, List.sum_replicate, smul_eq_mul, mul_one]

/-! ### A fleet that has published -/

/-- A node, and what its daemon has found. -/
structure Publisher where
  node : Node
  sysfs : Sysfs
  topology : NodeTopology
  accels : List Accelerator

namespace Publisher

/-- The node after the patch of the daemon. -/
def patched (d : Publisher) : Node := published d.sysfs d.topology d.accels d.node

/-- What the admin makes of it. -/
def view (d : Publisher) : NodeView := NodeView.fromNode d.patched

lemma name_view (d : Publisher) : d.view.name = d.node.metadata.name.getD "" := by
  have h : d.patched.metadata.name = d.node.metadata.name := rfl
  rw [view, NodeView.fromNode, h]

lemma ready_view (d : Publisher) : d.view.ready = (NodeView.fromNode d.node).ready := rfl

lemma rack_view (d : Publisher) : d.view.rack = d.topology.rack := by
  dsimp only [view, NodeView.fromNode]
  rw [patched, labels_published _ _ _ _ (by decide), getElem?_labels_rack]

lemma vendorCounts_view (d : Publisher) (h : d.accels.length < 2 ^ 64) (v : String) :
    d.view.vendorCounts[v]? = tally (d.accels.map fun a => a.id.vendor.slug) v :=
  getElem?_parseCountLabels_published d.sysfs d.topology d.accels d.node (by decide)
    (by decide) (by rwa [List.length_map]) (getElem?_labels_vendor d.sysfs d.topology d.accels v)

end Publisher

/-! ### Totals -/

section Totals

variable {α : Type} {items : List α} {view : α → NodeView} {words : α → List String}

/-- The counts of the nodes add up to the count of everything. -/
lemma sum_countsOf (h : ∀ a ∈ items, ∀ v, (view a).vendorCounts[v]? = tally (words a) v)
    (v : String) : (countsOf (items.map view) v).sum = (items.flatMap words).count v := by
  induction items with
  | nil => rfl
  | cons a items ih =>
      rw [List.forall_mem_cons] at h
      have hrest := ih h.2
      rw [countsOf] at hrest
      rw [countsOf, List.map_cons, List.filterMap_cons, h.1, List.flatMap_cons, List.count_append,
        tally, ← hrest]
      split_ifs with hcount
      · rw [hcount, Nat.zero_add]
      · rw [List.sum_cons]

/-- A word without a count does not occur. -/
lemma countsOf_eq_nil_iff (h : ∀ a ∈ items, ∀ v, (view a).vendorCounts[v]? = tally (words a) v)
    (v : String) : countsOf (items.map view) v = [] ↔ (items.flatMap words).count v = 0 := by
  rw [← sum_countsOf h v]
  refine ⟨fun hnil => by rw [hnil, List.sum_nil], fun hsum => ?_⟩
  refine List.eq_nil_iff_forall_not_mem.mpr fun c hc => ?_
  obtain ⟨n, hn, hcount⟩ := List.mem_filterMap.mp hc
  obtain ⟨a, ha, rfl⟩ := List.mem_map.mp hn
  rw [h a ha, tally] at hcount
  split_ifs at hcount with hzero
  have hle : c ≤ (countsOf (items.map view) v).sum := List.single_le_sum (by simp) c hc
  obtain rfl := Option.some.inj hcount
  omega

/-- **The totals of a summary** are the counts of everything together. -/
lemma getElem?_vendorTotals {s : ClusterSummary} (hs : Summarizes (items.map view) s)
    (h : ∀ a ∈ items, ∀ v, (view a).vendorCounts[v]? = tally (words a) v)
    (hlength : (items.flatMap words).length < 2 ^ 64) (v : String) :
    s.vendorTotals[v]? = tally (items.flatMap words) v := by
  have hcount : (items.flatMap words).count v ≤ (items.flatMap words).length :=
    List.count_le_length
  rw [hs.vendorTotals, sum_countsOf h, tally, Nat.mod_eq_of_lt (by omega)]
  simp only [countsOf_eq_nil_iff h]

/-- The totals of a fleet are the counts of all its accelerators. -/
lemma vendorTotals_eq {fleet : List Publisher} {s : ClusterSummary}
    (hs : Summarizes (fleet.map Publisher.view) s)
    (h : (fleet.flatMap Publisher.accels).length < 2 ^ 64) :
    s.vendorTotals = countBy (fleet.flatMap Publisher.accels) fun a => a.id.vendor.slug := by
  have heach : ∀ d ∈ fleet, ∀ v,
      d.view.vendorCounts[v]? = tally (d.accels.map fun a => a.id.vendor.slug) v := by
    intro d hd v
    have hle : d.accels.length ≤ (fleet.flatMap Publisher.accels).length := by
      rw [List.length_flatMap]
      exact List.single_le_sum (by simp) _ (List.mem_map_of_mem hd)
    exact d.vendorCounts_view (by omega) v
  refine ExtTreeMap.ext_getElem? fun v => ?_
  rw [getElem?_countBy, List.map_flatMap]
  refine getElem?_vendorTotals hs heach ?_ v
  rwa [← List.map_flatMap, List.length_map]

end Totals

/-- The members of a rack, as the admin sees them. -/
lemma filter_rack_view (fleet : List Publisher) (r : String) :
    (fleet.map Publisher.view).filter (·.rack = some r) =
      (fleet.filter (·.topology.rack = some r)).map Publisher.view := by
  rw [List.filter_map]
  refine congrArg _ (List.filter_congr fun d _ => ?_)
  rw [Function.comp_apply, d.rack_view]

/-- The nodes of all verdicts are those that have one. -/
lemma sum_probeVerdicts (nodes : List NodeView) :
    ((summarize nodes).probeVerdicts.toList.map Prod.snd).sum =
      nodes.countP (·.verdict.isSome) := by
  rw [sum_of_tally (summarizes_summarize nodes).probeVerdicts, List.length_filterMap_eq_countP]

/-- What the summary of a fleet should be: that of its topologies. The racks are those of the
daemons, each with its nodes in their order, of which all that have a verdict are healthy or
failed; the accelerators are counted as if they were on one node, and none is missing. -/
structure FleetSummary (fleet : List Publisher) (s : ClusterSummary) : Prop where
  nodesTotal : s.nodesTotal = fleet.length
  nodesReady : s.nodesReady = fleet.countP fun d => (NodeView.fromNode d.node).ready
  racks_isSome : ∀ r, s.racks[r]?.isSome ↔ ∃ d ∈ fleet, d.topology.rack = some r
  nodes : ∀ r e, s.racks[r]? = some e → e.nodes =
    (fleet.filter (·.topology.rack = some r)).map fun d => d.node.metadata.name.getD ""
  healthy : ∀ r e, s.racks[r]? = some e → e.healthyProbes =
    (fleet.filter (·.topology.rack = some r)).countP (·.view.isHealthy)
  judged : ∀ r e, s.racks[r]? = some e → e.healthyProbes + e.failedProbes =
    (fleet.filter (·.topology.rack = some r)).countP (·.view.verdict.isSome)
  verdicts : (s.probeVerdicts.toList.map Prod.snd).sum = fleet.countP (·.view.verdict.isSome)
  vendorTotals :
    s.vendorTotals = countBy (fleet.flatMap Publisher.accels) fun a => a.id.vendor.slug
  accelerators :
    (s.vendorTotals.toList.map Prod.snd).sum = (fleet.map (·.accels.length)).sum

/-- **The cluster at a glance.** However many nodes have published, in whatever order the API
server lists them and whatever labels they had before, the summary counts each node once in
the rack of its topology, and each accelerator once under its vendor. -/
theorem cluster_published {fleet : List Publisher}
    (h : (fleet.flatMap Publisher.accels).length < 2 ^ 64) :
    FleetSummary fleet (cluster (fleet.map Publisher.patched)).summary := by
  have hviews : listNodes (fleet.map Publisher.patched) = fleet.map Publisher.view := by
    rw [listNodes, List.map_map]
    rfl
  have hs := summarizes_summarize (fleet.map Publisher.view)
  have htotals := vendorTotals_eq hs h
  have hentry (r : String) (e : RackSummary)
      (he : (summarize (fleet.map Publisher.view)).racks[r]? = some e) :
      e = entryOf ((fleet.filter (·.topology.rack = some r)).map Publisher.view) := by
    rw [hs.racks, filter_rack_view] at he
    split_ifs at he
    exact (Option.some.inj he).symm
  rw [cluster, hviews]
  refine ⟨?nodesTotal, ?nodesReady, ?racks_isSome, ?nodes, ?healthy, ?judged, ?verdicts, htotals,
    ?accelerators⟩
  case nodesTotal => rw [hs.nodesTotal, List.length_map]
  case nodesReady =>
    rw [hs.nodesReady, List.countP_map]
    exact List.countP_congr fun d _ => by rw [Function.comp_apply, d.ready_view]
  case racks_isSome =>
    intro r
    rw [hs.racks, filter_rack_view]
    split_ifs with hnil
    · rw [List.map_eq_nil_iff, List.filter_eq_nil_iff] at hnil
      simpa using hnil
    · rw [List.map_eq_nil_iff, List.filter_eq_nil_iff] at hnil
      simpa using hnil
  case nodes =>
    intro r e he
    rw [hentry r e he, entryOf, List.map_map]
    exact List.map_congr_left fun d _ => d.name_view
  case healthy =>
    intro r e he
    rw [hentry r e he, entryOf, List.countP_map]
    rfl
  case judged =>
    intro r e he
    rw [hentry r e he, entryOf_healthy_add_failed, List.countP_map]
    rfl
  case verdicts =>
    rw [sum_probeVerdicts, List.countP_map]
    rfl
  case accelerators =>
    rw [htotals, sum_countBy, List.length_flatMap]

/-- A card of a node, and the node, which was in another rack before. -/
def movedPublisher (name : String) (index : ℕ) : Publisher where
  node := {
    metadata := {
      name := some name
      labels := some (ExtTreeMap.ofList [("accel-topo.lunnova.dev/rack", "r9")]) }
    status := none }
  sysfs _ := none
  topology := ⟨none, some "r1", [], [], ⟨[]⟩⟩
  accels := [
    ⟨⟨.amd, index, "0000:03:00.0"⟩, "MI300X", .dedicated, none, none, .full, none, false, []⟩]

/-- Two nodes that have been moved are in their new rack, and their cards are added up. -/
theorem cluster_published_moved :
    FleetSummary [movedPublisher "node-a" 0, movedPublisher "node-b" 1]
      (cluster ([movedPublisher "node-a" 0, movedPublisher "node-b" 1].map
        Publisher.patched)).summary :=
  cluster_published (by decide)

end Accelrd.Admin
