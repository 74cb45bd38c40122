import Mathlib.Tactic
import Accelrd.Kube
import Accelrd.Topology.Basic

/-!
`src/topology/labels.rs`: the labels and annotations in which a node publishes its
accelerators and its place in the cluster.

* `labelEntries`, `annotationEntries`: the insertions of `build`, in the order of the code.
* `build`: the set they add up to; of two insertions under one key the later one counts.
-/

namespace Accelrd.Topology

open Std Sensors

/-- `LabelSet`. -/
structure LabelSet where
  labels : StrMap
  annotations : StrMap

/-! ### Counting -/

/-- `*counts.entry(key).or_default() += n`. -/
def addCount (counts : ExtTreeMap String ℕ) (key : String) (n : ℕ) : ExtTreeMap String ℕ :=
  counts.insert key (counts.getD key 0 + n)

/-- `count_by`. -/
def countBy (accels : List Accelerator) (key : Accelerator → String) : ExtTreeMap String ℕ :=
  accels.foldl (fun counts a => addCount counts (key a) 1) ∅

/-- The number of members per id of a fabric domain. -/
def domainCounts (domains : List FabricDomain) : ExtTreeMap String ℕ :=
  domains.foldl (fun counts d => addCount counts d.id d.memberAccelerators.length) ∅

/-- The insertions of `emit_count_labels`. -/
def emitCountLabels (pre : String) (counts : ExtTreeMap String ℕ) : List (String × String) :=
  counts.toList.map fun (key, count) => (pre ++ "." ++ key ++ ".count", toString count)

/-- The parent directories of the devices of each vendor, every directory once. -/
def physicalFuncs (accels : List Accelerator) : ExtTreeMap String (List Path) :=
  accels.foldl (fun funcs a => match a.deviceDir.parent with
    | none => funcs
    | some parent =>
        let slug := a.id.vendor.slug
        funcs.insert slug ((funcs.getD slug []).insert parent)) ∅

/-- `slugify`. -/
def slugify (s : String) : String :=
  let trimmed := Text.trimMatches '-' (squash false s.toList)
  if trimmed = [] then "unknown" else String.ofList trimmed

/-! ### SR-IOV capacity -/

/-- `sriov_total` and `sriov_used`, if `sriov_seen`, after the loop over the accelerators;
the sum wraps as in a release build. -/
def sriov (sysfs : Sysfs) (accels : List Accelerator) : Option (ℕ × ℕ) :=
  accels.foldl (fun acc a =>
    match a.deviceDir.parent.bind (sriovCapacity sysfs) with
    | none => acc
    | some (total, used) =>
        let (sriovTotal, sriovUsed) := acc.getD (0, 0)
        some (max sriovTotal total, (sriovUsed + used) % 2 ^ 64)) none

/-! ### Inventory -/

/-- `InventoryEntry`, as JSON. -/
def inventoryEntry (a : Accelerator) : Json :=
  .obj [("vendor", .str a.id.vendor.slug), ("model", .str a.model),
    ("memory_kind", .str a.memoryKind.slug),
    ("memory_total_bytes", .option (fun n : ℕ => .num n) a.memoryTotalBytes),
    ("fabric_domain", .option .str a.fabricDomain), ("numa_node", .option .num a.numaNode),
    ("accel_index", .num a.id.drmIndex), ("pci_addr", .str a.id.pciAddr),
    ("coverage", .str a.coverage.slug), ("partitioned", .bool a.partitioned)]

/-! ### The switches -/

/-- The neighbours that are the first with their chassis id. -/
def firstOfChassis (seen : List String) : List LldpNeighbor → List LldpNeighbor
  | [] => []
  | n :: ns =>
      if n.chassisId ∈ seen then firstOfChassis seen ns
      else n :: firstOfChassis (n.chassisId :: seen) ns

/-- The labels about switches. -/
def lldpLabels (neighbors : List LldpNeighbor) : List (String × String) :=
  let chassis := firstOfChassis [] neighbors
  if neighbors.isEmpty then []
  else chassis.map (fun n => ("accel-topo.lunnova.dev/lldp.chassis." ++ n.rackSlug, "1")) ++
    [("accel-topo.lunnova.dev/lldp.chassis-count", toString chassis.length)]

/-! ### The set -/

/-- The labels that `build` inserts. -/
def labelEntries (sysfs : Sysfs) (topology : NodeTopology) (accels : List Accelerator) :
    List (String × String) :=
  (topology.block.map fun v => ("accel-topo.lunnova.dev/block", v)).toList ++
  (topology.rack.map fun v => ("accel-topo.lunnova.dev/rack", v)).toList ++
  (domainCounts topology.fabricDomains).toList.map (fun (id, count) =>
    ("accel-topo.lunnova.dev/fabric-domain." ++ id, toString count)) ++
  [("accel-topo.lunnova.dev/fabric-domains-count", toString topology.fabricDomains.length)] ++
  emitCountLabels "accel.lunnova.dev/vendor" (countBy accels fun a => a.id.vendor.slug) ++
  emitCountLabels "accel.lunnova.dev/model" (countBy accels fun a => slugify a.model) ++
  emitCountLabels "accel.lunnova.dev/memory-kind" (countBy accels fun a => a.memoryKind.slug) ++
  (physicalFuncs accels).toList.map (fun (vendor, funcs) =>
    ("accel.lunnova.dev/vendor." ++ vendor ++ ".physical-count", toString funcs.length)) ++
  [("accel.lunnova.dev/total-count", toString accels.length)] ++
  (match sriov sysfs accels with
    | none => []
    | some (total, used) => [("accel.lunnova.dev/sriov.total", toString total),
        ("accel.lunnova.dev/sriov.configured", toString used)]) ++
  (if topology.rdma.anyActiveRoce then [("accel-net.lunnova.dev/rdma", "present")] else []) ++
  (if topology.rdma.isEmpty then []
    else [("accel-net.lunnova.dev/rdma.devices-count", toString topology.rdma.devices.length)]) ++
  lldpLabels topology.lldpNeighbors

variable [Json.Serializer]

/-- The annotations that `build` inserts. -/
def annotationEntries (topology : NodeTopology) (accels : List Accelerator) :
    List (String × String) :=
  [("accel.lunnova.dev/inventory", (Json.list inventoryEntry accels).toString),
    ("accel.lunnova.dev/fabric-graph",
      (Json.list FabricDomain.toJson topology.fabricDomains).toString)] ++
  (if topology.rdma.isEmpty then []
    else [("accel-net.lunnova.dev/rdma-inventory", topology.rdma.toJson.toString)]) ++
  (if topology.lldpNeighbors.isEmpty then []
    else [("accel-topo.lunnova.dev/lldp-neighbors",
      (Json.list LldpNeighbor.toJson topology.lldpNeighbors).toString)])

/-- `build`. -/
def build (sysfs : Sysfs) (topology : NodeTopology) (accels : List Accelerator) : LabelSet where
  labels := ExtTreeMap.ofList (labelEntries sysfs topology accels)
  annotations := ExtTreeMap.ofList (annotationEntries topology accels)

end Accelrd.Topology
