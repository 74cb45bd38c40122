import Mathlib.Tactic
import Accelrd.Library.Insertions
import Accelrd.Topology.Published
import Accelrd.Telemetry.Preflight
import Accelrd.Prober.Pair
import Accelrd.Admin.Verdict

/-!
`src/admin/k8s.rs`, `NodeView`: what the admin reads off the labels of a node. The other
reader of these labels is `eligible` of the prober.

* `getElem?_parseCountLabels`: the counts are taken apart as they were put together.
* `labelAt_published`: the labels of a node under the prefixes of the daemon, once it has
  published a topology.
* `published_seen`: both readers see the topology and the accelerators of the daemon.
-/

namespace Accelrd.Admin

open Std Kube Sensors K8s Accelrd.Topology

/-! ### The reader -/

/-- `NodeView`. -/
structure NodeView where
  name : String
  rack : Option String
  block : Option String
  vendorCounts : ExtTreeMap String ℕ
  modelCounts : ExtTreeMap String ℕ
  totalAccelerators : Option ℕ
  fabricDomains : ℕ
  rdmaCapable : Bool
  lastProbe : Option ProbeRecord
  conditions : List NodeCondition
  ready : Bool
  topoLabels : StrMap

/-- `v.parse::<u64>().ok()`. -/
def parseCount (v : String) : Option ℕ := Text.parseUnsigned 64 v.toList

/-- One label, if it is a count. -/
def readCount (pre suffix : String) (e : String × String) : Option (String × ℕ) := do
  let rest ← Text.stripPrefix e.1 pre
  let key ← Text.stripSuffix rest suffix
  let count ← parseCount e.2
  return (key, count)

/-- `parse_count_labels`. -/
def parseCountLabels (labels : StrMap) (pre suffix : String) : ExtTreeMap String ℕ :=
  labels.foldl (fun out k v =>
    match readCount pre suffix (k, v) with
    | some (key, count) => out.insert key count
    | none => out) ∅

/-- The prefixes of the labels that are shown as they are. -/
def shownPrefixes : List String :=
  ["accel-topo.lunnova.dev/", "accel.lunnova.dev/", "accel-test.lunnova.dev/",
    "accel-net.lunnova.dev/", "accel-ready.lunnova.dev/"]

/-- `NodeView::from_node`. -/
def NodeView.fromNode (node : Node) : NodeView :=
  let labels := node.metadata.labels.getD ∅
  let annotations := node.metadata.annotations.getD ∅
  let conditions := (node.status.bind (·.conditions)).getD []
  { name := node.metadata.name.getD ""
    rack := labels["accel-topo.lunnova.dev/rack"]?
    block := labels["accel-topo.lunnova.dev/block"]?
    totalAccelerators := labels["accel.lunnova.dev/total-count"]?.bind parseCount
    fabricDomains := (labels["accel-topo.lunnova.dev/fabric-domains-count"]?.bind parseCount).getD 0
    vendorCounts := parseCountLabels labels "accel.lunnova.dev/vendor." ".count"
    modelCounts := parseCountLabels labels "accel.lunnova.dev/model." ".count"
    rdmaCapable := labels["accel-net.lunnova.dev/rdma"]? = some "present"
    lastProbe := resolveVerdict annotations labels
    conditions := conditions
    ready := conditions.any fun c => c.type_ = "Ready" ∧ c.status = "True"
    topoLabels := labels.filter fun k _ => shownPrefixes.any (Text.startsWith k) }

/-! ### Reading counts back -/

lemma readCount_eq_some_iff {pre suffix k v key : String} {count : ℕ} :
    readCount pre suffix (k, v) = some (key, count) ↔
      k = pre ++ key ++ suffix ∧ parseCount v = some count := by
  simp only [readCount, Option.bind_eq_bind, Option.bind_eq_some_iff, Text.stripPrefix_eq_some_iff,
    Text.stripSuffix_eq_some_iff, Option.pure_def, Option.some.injEq, Prod.mk.injEq]
  constructor
  · rintro ⟨rest, rfl, key', rfl, count', hcount, rfl, rfl⟩
    exact ⟨(String.append_assoc).symm, hcount⟩
  · rintro ⟨rfl, hcount⟩
    exact ⟨key ++ suffix, String.append_assoc, key, rfl, count, hcount, rfl, rfl⟩

/-- The insertions of `parse_count_labels`. -/
lemma parseCountLabels_eq (labels : StrMap) (pre suffix : String) :
    parseCountLabels labels pre suffix
      = ExtTreeMap.ofList (labels.toList.filterMap (readCount pre suffix)) := by
  rw [parseCountLabels, ExtTreeMap.foldl_eq_foldl_toList, ExtTreeMap.ofList_eq_foldl]
  generalize (∅ : ExtTreeMap String ℕ) = out
  induction labels.toList generalizing out with
  | nil => rfl
  | cons e l ih =>
      rw [List.foldl_cons]
      cases h : readCount pre suffix (e.1, e.2) with
      | none => rw [List.filterMap_cons_none h, ih]
      | some c => rw [List.filterMap_cons_some h, List.foldl_cons, ih]

/-- **Counts are read back**: the count of a key is what its label says. -/
lemma getElem?_parseCountLabels (labels : StrMap) (pre suffix key : String) :
    (parseCountLabels labels pre suffix)[key]?
      = labels[pre ++ key ++ suffix]?.bind parseCount := by
  rw [parseCountLabels_eq]
  cases h : labels[pre ++ key ++ suffix]?.bind parseCount with
  | none =>
      refine Insertions.getElem?_ofList_eq_none fun e he heq => ?_
      obtain ⟨⟨k, v⟩, hmem, hread⟩ := List.mem_filterMap.mp he
      obtain ⟨rfl, hcount⟩ := readCount_eq_some_iff.mp hread
      subst heq
      rw [ExtTreeMap.mem_toList_iff_getElem?_eq_some.mp hmem, Option.bind_some, hcount] at h
      simp at h
  | some count =>
      obtain ⟨v, hv, hcount⟩ := Option.bind_eq_some_iff.mp h
      have hmem := ExtTreeMap.mem_toList_iff_getElem?_eq_some.mpr hv
      refine MergePatch.getElem?_ofList_of_nodup ?_
        (List.mem_filterMap.mpr ⟨_, hmem, readCount_eq_some_iff.mpr ⟨rfl, hcount⟩⟩)
      -- two labels with the same key between prefix and suffix are one label
      rw [List.Nodup, List.pairwise_map, List.pairwise_filterMap]
      refine ExtTreeMap.distinct_keys_toList.imp ?_
      intro ⟨k, v⟩ ⟨k', v'⟩ hne c hc c' hc' heq
      obtain ⟨rfl, -⟩ := readCount_eq_some_iff.mp hc
      obtain ⟨rfl, -⟩ := readCount_eq_some_iff.mp hc'
      refine hne ?_
      rw [heq]
      exact compare_self

lemma parseCount_toString {n : ℕ} (h : n < 2 ^ 64) : parseCount (toString n) = some n :=
  Text.parseUnsigned_toString h

/-- A count is read back from its label. -/
lemma getElem?_parseCountLabels_of_tally {labels : StrMap} {pre suffix key : String}
    {words : List String} (hlen : words.length < 2 ^ 64)
    (h : labels[pre ++ key ++ suffix]? = (tally words key).map toString) :
    (parseCountLabels labels pre suffix)[key]? = tally words key := by
  rw [getElem?_parseCountLabels, h]
  cases htally : tally words key with
  | none => rfl
  | some count =>
      have hle := tally_le_length htally
      rw [Option.map_some, Option.bind_some, parseCount_toString (by omega)]

/-! ### What the daemon has published -/

section Published

variable (sysfs : Sysfs) (topology : NodeTopology) (accels : List Accelerator)

/-- The node after the daemon's patch for this topology and these accelerators. -/
def published (n : Node) : Node :=
  n.merge (buildMergePatch n.metadata (build sysfs topology accels))

/-- Under the prefixes of the daemon the labels are those of the set, whatever was there
before. -/
lemma labelAt_published (n : Node) {k : String} (hk : Managed k) :
    (published sysfs topology accels n).metadata.labelAt k
      = (build sysfs topology accels).labels[k]? :=
  ((settled_buildMergePatch n.metadata
    (Telemetry.onlyManaged_build sysfs topology accels)).merge.1 k hk).1

/-- The labels of a node as its readers take them. -/
lemma labels_published (n : Node) {k : String} (hk : Managed k) :
    ((published sysfs topology accels n).metadata.labels.getD ∅)[k]?
      = (build sysfs topology accels).labels[k]? :=
  labelAt_published sysfs topology accels n hk

/-- The counts of a kind, as the admin reads them. -/
lemma getElem?_parseCountLabels_published (n : Node) {pre dotted key : String}
    {words : List String} (hpre : Managed pre) (hdot : dotted = pre ++ ".")
    (hlen : words.length < 2 ^ 64)
    (hbuild : (build sysfs topology accels).labels[pre ++ "." ++ key ++ ".count"]?
      = (tally words key).map toString) :
    (parseCountLabels ((published sysfs topology accels n).metadata.labels.getD ∅)
      dotted ".count")[key]? = tally words key := by
  have hmanaged : Managed (pre ++ "." ++ key ++ ".count") :=
    Telemetry.managed_append (Telemetry.managed_append (Telemetry.managed_append hpre _) _) _
  rw [hdot]
  exact getElem?_parseCountLabels_of_tally hlen
    (by rw [labels_published _ _ _ _ hmanaged, hbuild])

/-- What the admin should show of a node. -/
structure Shown (topology : NodeTopology) (accels : List Accelerator) (v : NodeView) : Prop where
  vendorCounts : ∀ key, v.vendorCounts[key]? = tally (accels.map fun a => a.id.vendor.slug) key
  modelCounts : ∀ key, v.modelCounts[key]? = tally (accels.map fun a => slugify a.model) key
  totalAccelerators : v.totalAccelerators = some accels.length
  fabricDomains : v.fabricDomains = topology.fabricDomains.length
  rack : v.rack = topology.rack
  block : v.block = topology.block
  rdmaCapable : v.rdmaCapable = topology.rdma.anyActiveRoce

lemma shown_published (n : Node) (haccels : accels.length < 2 ^ 64)
    (hdomains : topology.fabricDomains.length < 2 ^ 64) :
    Shown topology accels (NodeView.fromNode (published sysfs topology accels n)) where
  vendorCounts key := getElem?_parseCountLabels_published sysfs topology accels n (by decide)
    (by decide) (by rwa [List.length_map]) (getElem?_labels_vendor sysfs topology accels key)
  modelCounts key := getElem?_parseCountLabels_published sysfs topology accels n (by decide)
    (by decide) (by rwa [List.length_map]) (getElem?_labels_model sysfs topology accels key)
  totalAccelerators := by
    dsimp only [NodeView.fromNode]
    rw [labels_published _ _ _ _ (by decide), getElem?_labels_totalCount, Option.bind_some,
      parseCount_toString haccels]
  fabricDomains := by
    dsimp only [NodeView.fromNode]
    rw [labels_published _ _ _ _ (by decide), getElem?_labels_fabricDomainsCount, Option.bind_some,
      parseCount_toString hdomains, Option.getD_some]
  rack := by
    dsimp only [NodeView.fromNode]
    rw [labels_published _ _ _ _ (by decide), getElem?_labels_rack]
  block := by
    dsimp only [NodeView.fromNode]
    rw [labels_published _ _ _ _ (by decide), getElem?_labels_block]
  rdmaCapable := by
    dsimp only [NodeView.fromNode]
    rw [labels_published _ _ _ _ (by decide), getElem?_labels_rdma]
    cases topology.rdma.anyActiveRoce <;> simp

/-- The prober can read the node exactly when it has a rack and an active port. -/
lemma fromNode_published_eq_some_iff {n : Node} {name : String} (hname : n.isNamed name)
    {v : Prober.NodeView} :
    Prober.NodeView.fromNode (published sysfs topology accels n) = some v ↔
      v.name = name ∧ topology.rack = some v.rack ∧ topology.rdma.anyActiveRoce ∧
        v.lastAt = (published sysfs topology accels n).metadata.annotationAt Prober.annLastAt ∧
        v.lastLoopbackAt
          = (published sysfs topology accels n).metadata.annotationAt Prober.annLbLastAt := by
  have hname' : (published sysfs topology accels n).metadata.name = some name := hname
  have hrdma : (if topology.rdma.anyActiveRoce then some "present" else none)
      = some Prober.rdmaPresent ↔ topology.rdma.anyActiveRoce := by
    cases topology.rdma.anyActiveRoce <;> simp [Prober.rdmaPresent]
  rw [Prober.fromNode_eq_some_iff, hname', Prober.rackLabel, Prober.rdmaLabel,
    labelAt_published _ _ _ _ (by decide), labelAt_published _ _ _ _ (by decide),
    getElem?_labels_rack, getElem?_labels_rdma, hrdma, Option.some.injEq, eq_comm (a := name)]

/-- What a node adds to the eligible ones. -/
lemma eligible_append_cons (before after : List Node) (n : Node) :
    Prober.eligible (before ++ n :: after) = Prober.eligible before ++
      ((if Prober.isReady n then (Prober.NodeView.fromNode n).toList else []) ++
        Prober.eligible after) := by
  simp only [Prober.eligible, List.filter_append, List.filterMap_append, List.filter_cons]
  split_ifs with h
  · cases hv : Prober.NodeView.fromNode n with
    | none => rw [List.filterMap_cons_none hv]; rfl
    | some v => rw [List.filterMap_cons_some hv]; rfl
  · rfl

/-- An eligible node is in the group of its rack. -/
lemma mem_groupByRack {nodes : List Node} {v : Prober.NodeView} (hv : v ∈ Prober.eligible nodes) :
    v ∈ ((Prober.groupByRack (Prober.eligible nodes))[v.rack]?).getD [] := by
  have hmem : v ∈ Prober.members nodes v.rack := Prober.mem_members.mpr ⟨hv, rfl⟩
  rw [Prober.getElem?_groupByRack, if_neg (List.ne_nil_of_mem hmem)]
  exact hmem

/-- **What the daemon publishes is what its readers see.** Whatever a node was labelled with
before the patch, the admin shows the counts, the rack, the block and the RDMA state of the
daemon's topology, and the prober takes the node, in its rack, exactly when it is Ready and
has a rack and an active port. (Slices are never longer than the address space.) -/
theorem published_seen {n : Node} {name : String} (hname : n.isNamed name)
    (haccels : accels.length < 2 ^ 64) (hdomains : topology.fabricDomains.length < 2 ^ 64) :
    Shown topology accels (NodeView.fromNode (published sysfs topology accels n)) ∧
    (∀ r, Prober.isReady n → topology.rack = some r → topology.rdma.anyActiveRoce →
      ∃ v : Prober.NodeView, v.name = name ∧ v.rack = r ∧ ∀ before after,
        Prober.eligible (before ++ published sysfs topology accels n :: after)
          = Prober.eligible before ++ v :: Prober.eligible after ∧
        v ∈ ((Prober.groupByRack (Prober.eligible
          (before ++ published sysfs topology accels n :: after)))[r]?).getD []) ∧
    (¬ (Prober.isReady n ∧ topology.rack.isSome ∧ topology.rdma.anyActiveRoce) →
      ∀ before after, Prober.eligible (before ++ published sysfs topology accels n :: after)
        = Prober.eligible before ++ Prober.eligible after) := by
  have hready : Prober.isReady (published sysfs topology accels n) = Prober.isReady n := rfl
  refine ⟨shown_published sysfs topology accels n haccels hdomains, ?_, ?_⟩
  · intro r hr hrack hrdma
    obtain ⟨v, hv, hvname, hvrack⟩ : ∃ v, Prober.NodeView.fromNode
        (published sysfs topology accels n) = some v ∧ v.name = name ∧ v.rack = r :=
      ⟨⟨name, _, _, r⟩, (fromNode_published_eq_some_iff sysfs topology accels hname).mpr
        ⟨rfl, hrack, hrdma, rfl, rfl⟩, rfl, rfl⟩
    refine ⟨v, hvname, hvrack, fun before after => ?_⟩
    have helig : Prober.eligible (before ++ published sysfs topology accels n :: after)
        = Prober.eligible before ++ v :: Prober.eligible after := by
      rw [eligible_append_cons, hready, if_pos hr, hv]
      rfl
    refine ⟨helig, ?_⟩
    rw [← hvrack]
    refine mem_groupByRack ?_
    rw [helig]
    exact List.mem_append_right _ List.mem_cons_self
  · intro hnot before after
    rw [eligible_append_cons, hready]
    split_ifs with hr
    · cases hv : Prober.NodeView.fromNode (published sysfs topology accels n) with
      | none => rfl
      | some v =>
          obtain ⟨-, hrack, hrdma, -, -⟩ :=
            (fromNode_published_eq_some_iff sysfs topology accels hname).mp hv
          exact absurd ⟨hr, by rw [hrack]; rfl, hrdma⟩ hnot
    · rfl

/-- A Ready node that once had an Intel card. -/
def formerNode : Node where
  metadata := {
    name := some "node-a"
    labels := some (ExtTreeMap.ofList [("accel.lunnova.dev/vendor.intel.count", "1")]) }
  status := some { conditions := some [{ type_ := "Ready", status := "True" }] }

/-- A rack with one active port. -/
def rackTopology : NodeTopology where
  block := none
  rack := some "r1"
  fabricDomains := []
  lldpNeighbors := []
  rdma := ⟨[⟨"mlx5_0", [⟨1, "ACTIVE", "LinkUp", "Ethernet", some 400⟩]⟩]⟩

/-- Three cards have taken the place of the Intel card: the admin counts them by vendor, and
the prober takes the node, in its rack. When the kubelet has not said that the node is Ready,
the prober does not. -/
theorem published_seen_ready :
    let accels := [bareCard ⟨.amd, 0, "0000:01:00.0"⟩ ["card0"],
      bareCard ⟨.amd, 1, "0000:02:00.0"⟩ ["card1"], bareCard ⟨.nvidia, 2, "0000:03:00.0"⟩ ["card2"]]
    let view := NodeView.fromNode (published (fun _ => none) rackTopology accels formerNode)
    (view.vendorCounts["amd"]? = some 2 ∧ view.vendorCounts["nvidia"]? = some 1 ∧
      view.vendorCounts["intel"]? = none ∧ view.totalAccelerators = some 3 ∧
      view.rack = some "r1" ∧ view.rdmaCapable) ∧
    (∃ v : Prober.NodeView, v.name = "node-a" ∧ v.rack = "r1" ∧
      Prober.eligible [published (fun _ => none) rackTopology accels formerNode] = [v]) ∧
    Prober.eligible [published (fun _ => none) rackTopology accels
      { formerNode with status := none }] = [] := by
  intro accels view
  obtain ⟨hshown, htaken, -⟩ := @published_seen (fun _ => none) rackTopology accels formerNode
    "node-a" (by decide) (by decide) (by decide)
  obtain ⟨-, -, hleft⟩ := @published_seen (fun _ => none) rackTopology accels
    { formerNode with status := none } "node-a" (by decide) (by decide) (by decide)
  refine ⟨⟨(hshown.vendorCounts "amd").trans (by decide),
    (hshown.vendorCounts "nvidia").trans (by decide),
    (hshown.vendorCounts "intel").trans (by decide), hshown.totalAccelerators, hshown.rack,
    hshown.rdmaCapable.trans (by decide)⟩, ?_, hleft (by decide) [] []⟩
  obtain ⟨v, hname, hrack, heligible⟩ := htaken "r1" (by decide) rfl (by decide)
  exact ⟨v, hname, hrack, (heligible [] []).1⟩

end Published

end Accelrd.Admin
