import Mathlib.Tactic
import Accelrd.Admin.Summary
import Accelrd.K8s.Sharing
import Accelrd.Sensors.Enumerate
import Accelrd.Telemetry.Checks
import Accelrd.Topology.Counts

/-!
The daemon as a whole, from the cards of its host to the console: `run` of
`src/lifecycle.rs` takes stock when it starts, and every cycle publishes that.

* `takeStock`: the code.
* `Boot`: a start of the daemon, on a host with given cards.
* `Member`: a node, in a state that its writers have reached.
* `cardsCounted_cluster`: the console counts the cards.
-/

namespace Accelrd.Lifecycle

open Std Kube Sensors K8s Telemetry Accelrd.Topology Admin

/-! ### The start -/

/-- What `run` of `src/lifecycle.rs` hands to its two loops. -/
def takeStock (args : Topology.Resolved) (host : Topology.Host) (view : HostView) :
    NodeTopology × List Accelerator :=
  discover args host (enumerateAll view)

/-- A start of the daemon, on a host with these cards. -/
structure Boot where
  args : Topology.Resolved
  host : Topology.Host
  view : HostView
  cards : List DrmCard
  others : List String
  sysfs_eq : host.sysfs = view.files
  lists : Sensors.Lists view cards others

namespace Boot

variable (b : Boot)

/-- `topology` of `run`. -/
def topology : NodeTopology := (takeStock b.args b.host b.view).1

/-- `accelerators` of `run`. -/
def accelerators : List Accelerator := (takeStock b.args b.host b.view).2

/-- A cycle of this process: the labels are those of the start, the checks look at the host as
it is. -/
def cycle (later : HostView) (clock : ℕ) : Cycle where
  sysfs := b.host.sysfs
  topology := b.topology
  accelerators := b.accelerators
  checks := defaultRegistry later
  clock := clock

/-- The vendors of the cards, with repetitions, without those that no backend is for. -/
def vendors : List Vendor :=
  ((devices b.cards).map fun c => cardVendor b.view.files c.2).filter (· ≠ .other)

/-- The devices of a vendor. -/
def count (w : Vendor) : ℕ :=
  (devices b.cards).countP fun c => cardVendor b.view.files c.2 = w

end Boot

/-! ### Vendors -/

/-- The backends share the vendors among them. -/
lemma flatMap_filter_perm (vs : List Vendor) :
    ([Vendor.amd, .nvidia, .intel].flatMap fun v => vs.filter (· = v)).Perm
      (vs.filter (· ≠ .other)) := by
  have hcount (v w : Vendor) :
      (vs.filter (· = v)).count w = if w = v then vs.count w else 0 := by
    split_ifs with hwv
    · exact List.count_filter (by simpa using hwv)
    · exact List.count_eq_zero_of_not_mem fun hmem => hwv (by simpa using List.of_mem_filter hmem)
  have hother (w : Vendor) :
      (vs.filter (· ≠ .other)).count w = if w ≠ .other then vs.count w else 0 := by
    split_ifs with hw
    · exact List.count_filter (by simpa using hw)
    · exact List.count_eq_zero_of_not_mem fun hmem => hw (by simpa using List.of_mem_filter hmem)
  refine List.perm_iff_count.mpr fun w => ?_
  simp only [List.flatMap_cons, List.flatMap_nil, List.append_nil, List.count_append, hcount,
    hother]
  cases w <;> simp

namespace Boot

variable (b : Boot)

/-- Every card with a backend is taken stock of. -/
lemma vendors_perm : (b.accelerators.map (·.id.vendor)).Perm b.vendors := by
  have hdiscover : b.accelerators.map (·.id.vendor) = (enumerateAll b.view).map (·.id.vendor) :=
    map_discover b.args b.host fun _ _ => rfl
  have horigin : (enumerateAll b.view).map (·.id.vendor) =
      ((enumerateAll b.view).map origin).map Prod.fst := by rw [List.map_map]; rfl
  have hshare (v : Vendor) : ((ofVendor b.view b.cards v).map fun c => (v, c)).map Prod.fst =
      ((devices b.cards).map fun c => cardVendor b.view.files c.2).filter (· = v) := by
    rw [List.map_map, List.filter_map, ofVendor]
    refine List.map_congr_left fun c hc => ?_
    have hv : cardVendor b.view.files c.2 = v := of_decide_eq_true (List.mem_filter.mp hc).2
    exact hv.symm
  rw [hdiscover, horigin, map_origin_enumerateAll b.lists, List.map_flatMap]
  simp only [hshare]
  exact flatMap_filter_perm _

lemma length_vendors_le : b.vendors.length ≤ (devices b.cards).length := by
  rw [vendors]
  exact (List.length_filter_le _ _).trans_eq (List.length_map _)

lemma count_vendors {w : Vendor} (hw : w ≠ .other) : b.vendors.count w = b.count w := by
  rw [vendors, List.count_filter (by simpa using hw), List.count, List.countP_map, count]
  exact congrArg (List.countP · _) (funext fun c => beq_eq_decide _ _)

/-- No accelerator is lost between the enumeration and the labels. -/
theorem conserved :
    Conserved (build b.host.sysfs b.topology b.accelerators).labels
      (enumerateAll b.view).length :=
  conserved_discover (nodup_id_enumerateAll b.lists) (fabricDomain_enumerateAll b.view)

/-- What the labels of a cycle count. -/
lemma tally_slug (v : String) :
    tally (b.accelerators.map fun a => a.id.vendor.slug) v =
      tally (b.vendors.map Vendor.slug) v := by
  have hperm : (b.accelerators.map fun a => a.id.vendor.slug).Perm (b.vendors.map Vendor.slug) := by
    have hmap := b.vendors_perm.map Vendor.slug
    rwa [List.map_map] at hmap
  rw [tally, tally, hperm.count_eq]

/-- A cycle says of the topology what was found at the start. -/
lemma labels_cycle (later : HostView) (clock : ℕ) {k : String}
    (hk : ¬Text.startsWith k "accel-ready.lunnova.dev/") :
    (b.cycle later clock).desired.labels[k]? =
      (build b.host.sysfs b.topology b.accelerators).labels[k]? := by
  have hne (rest : String) : "accel-ready.lunnova.dev/" ++ rest ≠ k := by
    rintro rfl
    exact hk (Text.startsWith_append _ rest)
  rw [Cycle.desired, runCycle]
  dsimp only [cycle, publishReadiness]
  rw [ExtTreeMap.getElem?_insert, if_neg, ExtTreeMap.getElem?_insert, if_neg]
  · rw [Std.compare_eq_iff_eq]
    exact hne "inference"
  · rw [Std.compare_eq_iff_eq]
    exact hne "training"

end Boot

/-! ### A node in a run -/

/-- A node, in a state that some interleaving of its writers has reached. The patch that took
effect last is that of a cycle of a daemon with this start; patches of earlier processes, the
prober and others may have come before and after it. -/
structure Member where
  initial : ObjectMeta
  events : List Event
  state : K8s.State
  reached : run (start initial) events = some state
  boot : Boot
  later : HostView
  clock : ℕ
  published : state.published = some (boot.cycle later clock)
  status : Option NodeStatus

namespace Member

variable (m : Member)

/-- The node. -/
def node : Node := ⟨m.state.node, m.status⟩

/-- The console's view of it. -/
def view : NodeView := NodeView.fromNode m.node

/-- What the start found is on the node. -/
lemma labels_node {k : String} (hk : Managed k)
    (hready : ¬Text.startsWith k "accel-ready.lunnova.dev/") :
    (m.node.metadata.labels.getD ∅)[k]? =
      (build m.boot.host.sysfs m.boot.topology m.boot.accelerators).labels[k]? := by
  rw [← m.boot.labels_cycle m.later m.clock hready]
  exact ((run_inv m.reached).published _ m.published k hk).1

lemma rack_view : m.view.rack = m.boot.topology.rack := by
  dsimp only [view, NodeView.fromNode]
  rw [m.labels_node (by decide) (by decide), getElem?_labels_rack]

lemma vendorCounts_view (h : m.boot.vendors.length < 2 ^ 64) (v : String) :
    m.view.vendorCounts[v]? = tally (m.boot.vendors.map Vendor.slug) v := by
  have hmanaged : Managed ("accel.lunnova.dev/vendor." ++ v ++ ".count") :=
    managed_append (managed_append (by decide) _) _
  have hready : ¬Text.startsWith ("accel.lunnova.dev/vendor." ++ v ++ ".count")
      "accel-ready.lunnova.dev/" := by
    intro hstarts
    have hother : Text.startsWith ("accel.lunnova.dev/vendor." ++ v ++ ".count")
        "accel.lunnova.dev/vendor." := by
      rw [String.append_assoc]
      exact Text.startsWith_append _ _
    exact absurd (Text.compatible_of_startsWith hstarts hother) (by decide)
  refine getElem?_parseCountLabels_of_tally (by rwa [List.length_map]) ?_
  rw [m.labels_node hmanaged hready, ← m.boot.tally_slug]
  exact getElem?_labels_vendor _ _ _ v

end Member

/-! ### The cluster -/

/-- The cards of a vendor in the cluster. -/
def cardsOf (fleet : List Member) (w : Vendor) : ℕ := (fleet.map fun m => m.boot.count w).sum

/-- What the console should say about the hardware of a fleet. -/
structure CardsCounted (fleet : List Member) (s : ClusterSummary) : Prop where
  nodes : s.nodesTotal = fleet.length
  vendors : ∀ w ≠ Vendor.other, s.vendorTotals[w.slug]? =
    if cardsOf fleet w = 0 then none else some (cardsOf fleet w)
  known : ∀ v n, s.vendorTotals[v]? = some n → ∃ w ≠ Vendor.other, v = w.slug
  total : (s.vendorTotals.toList.map Prod.snd).sum = (fleet.map (·.boot.vendors.length)).sum
  racks : ∀ r, s.racks[r]?.isSome ↔ ∃ m ∈ fleet, m.boot.topology.rack = some r
  members : ∀ r e, s.racks[r]? = some e → e.nodes =
    (fleet.filter (·.boot.topology.rack = some r)).map fun m => m.node.metadata.name.getD ""

/-- The vendors of all nodes. -/
lemma count_vendors_fleet (fleet : List Member) {w : Vendor} (hw : w ≠ .other) :
    (fleet.flatMap fun m => m.boot.vendors.map Vendor.slug).count w.slug = cardsOf fleet w := by
  induction fleet with
  | nil => rfl
  | cons m fleet ih =>
      rw [List.flatMap_cons, List.count_append, ih, cardsOf, cardsOf, List.map_cons, List.sum_cons,
        List.count_map_of_injective _ _ Vendor.slug_injective, m.boot.count_vendors hw]

/-- The members of a rack, as the console sees them. -/
lemma filter_rack_members (fleet : List Member) (r : String) :
    (fleet.map Member.view).filter (·.rack = some r) =
      (fleet.filter (·.boot.topology.rack = some r)).map Member.view := by
  rw [List.filter_map]
  refine congrArg _ (List.filter_congr fun m _ => ?_)
  rw [Function.comp_apply, m.rack_view]

/-- **The console counts the cards.** Whatever the directories of the hosts list between their
cards, and in what order; whatever the daemons, the prober and others have written to the
nodes before and since, and in what order: the totals of the cluster are the numbers of cards
by the vendor that their device has, each card counted once. -/
theorem cardsCounted_cluster {fleet : List Member}
    (h : (fleet.flatMap fun m => devices m.boot.cards).length < 2 ^ 64) :
    CardsCounted fleet (cluster (fleet.map Member.node)).summary := by
  have hviews : listNodes (fleet.map Member.node) = fleet.map Member.view := by
    rw [listNodes, List.map_map]
    rfl
  have hs := summarizes_summarize (fleet.map Member.view)
  have hwords : (fleet.flatMap fun m => m.boot.vendors.map Vendor.slug).length =
      (fleet.map (·.boot.vendors.length)).sum := by
    simp only [List.length_flatMap, List.length_map]
  have hle : (fleet.map (·.boot.vendors.length)).sum ≤
      (fleet.flatMap fun m => devices m.boot.cards).length := by
    rw [List.length_flatMap]
    exact List.sum_le_sum fun m _ => m.boot.length_vendors_le
  have heach : ∀ m ∈ fleet, ∀ v,
      m.view.vendorCounts[v]? = tally (m.boot.vendors.map Vendor.slug) v := by
    intro m hm v
    have hone : m.boot.vendors.length ≤ (fleet.map (·.boot.vendors.length)).sum :=
      List.single_le_sum (by simp) _ (List.mem_map_of_mem hm)
    exact m.vendorCounts_view (by omega) v
  have htotals := getElem?_vendorTotals hs heach (by omega)
  rw [cluster, hviews]
  refine ⟨?nodes, fun w hw => ?vendors, fun v n hv => ?known, ?total, fun r => ?racks,
    fun r e he => ?members⟩
  case nodes => rw [hs.nodesTotal, List.length_map]
  case vendors => rw [htotals, tally, count_vendors_fleet fleet hw]
  case known =>
    rw [htotals, tally] at hv
    split_ifs at hv with hcount
    obtain ⟨m, -, hmem⟩ := List.mem_flatMap.mp (List.count_pos_iff.mp (Nat.pos_of_ne_zero hcount))
    obtain ⟨w, hw, rfl⟩ := List.mem_map.mp hmem
    exact ⟨w, by simpa using List.of_mem_filter hw, rfl⟩
  case total => rw [sum_of_tally htotals, hwords]
  case racks =>
    rw [hs.racks, filter_rack_members]
    split_ifs with hnil <;>
      · rw [List.map_eq_nil_iff, List.filter_eq_nil_iff] at hnil
        simpa using hnil
  case members =>
    rw [hs.racks, filter_rack_members] at he
    split_ifs at he
    obtain rfl := Option.some.inj he
    rw [entryOf, List.map_map]
    rfl

/-! ### Two nodes -/

lemma sysfs_mixed : (bareHost mixedView.files fun _ => 0).sysfs = mixedView.files := rfl

/-- A start on a host with two cards, one of them of AMD. -/
def mixedBoot : Boot where
  args := ⟨none, some "r1", true, 35⟩
  host := bareHost mixedView.files fun _ => 0
  view := mixedView
  cards := mixedCards
  others := ["version", "card0-DP-1"]
  sysfs_eq := sysfs_mixed
  lists := lists_mixed

/-- Its cycle. -/
def mixedCycle : Cycle := mixedBoot.cycle mixedView 1778157296

/-- A process of a host that had no cards yet is replaced by this one, whose first patch is not
answered, and a probe ends before it is sent again. -/
def mixedEvents : List Event :=
  [.get emptyCycle, .attempt .accepted, .restart, .get mixedCycle, .attempt .unanswered,
    .probe (.pair "node-c" "2026-05-07T12:34:56Z" .timeout), .attempt .accepted]

/-- The metadata before. -/
def namedMeta (name : String) : ObjectMeta where
  name := some name
  labels := some (ExtTreeMap.ofList [("accel.lunnova.dev/vendor.amd.count", "8")])

lemma isSome_run_mixed (name : String) : (run (start (namedMeta name)) mixedEvents).isSome := rfl

/-- The state after these events. -/
def mixedState (name : String) : K8s.State :=
  (run (start (namedMeta name)) mixedEvents).get (isSome_run_mixed name)

lemma reached_mixed (name : String) :
    run (start (namedMeta name)) mixedEvents = some (mixedState name) :=
  (Option.some_get _).symm

lemma published_mixed (name : String) :
    (mixedState name).published = some (mixedBoot.cycle mixedView 1778157296) := rfl

/-- The node. -/
def mixedMember (name : String) : Member where
  initial := namedMeta name
  events := mixedEvents
  state := mixedState name
  reached := reached_mixed name
  boot := mixedBoot
  later := mixedView
  clock := 1778157296
  published := published_mixed name
  status := none

/-- Two such nodes have two cards. -/
theorem cardsCounted_cluster_mixed :
    CardsCounted [mixedMember "node-a", mixedMember "node-b"]
      (cluster ([mixedMember "node-a", mixedMember "node-b"].map Member.node)).summary :=
  cardsCounted_cluster (by decide)

end Accelrd.Lifecycle
