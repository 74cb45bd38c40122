import Mathlib.Tactic
import Accelrd.Admin.Node
import Accelrd.Topology.Rdma

/-!
`src/probe/device.rs`: the RDMA device that a probe runs on, and what it has to do with the
devices that the daemon published.

* `select`: the code.
* `select_of_eligible`: on a node that the prober takes, a probe finds a device.
-/

namespace Accelrd.Probe

open Accelrd.Kube Accelrd.Sensors Accelrd.Topology

/-- `select`: an error as it is displayed. -/
def select (dirs : Dirs) (explicit : Option String) : Except String String :=
  match explicit with
  | some d => .ok d
  | none =>
      match dirs sysfsInfiniband with
      | none => .error "read /sys/class/infiniband"
      | some names =>
          match names.insertionSort (· ≤ ·) with
          | [] => .error "no RDMA devices in /sys/class/infiniband (kernel ib drivers loaded?)"
          | d :: _ => .ok d

variable {host : SysInfiniband} {sysfs sysfs' : Sysfs} {dirs dirs' : Dirs}

/-- Among devices, the first in the order of the names is selected. -/
lemma select_none_eq {d : SysDevice} {ds : List SysDevice} (h : Shows host sysfs dirs)
    (hdevices : host.devices = d :: ds) : select dirs none = .ok d.name := by
  have hperm := h.devices
  have hsorted : (host.devices.map (·.name)).Pairwise fun a b => a < b :=
    List.pairwise_map.mpr host.ordered
  rw [select]
  cases hdir : dirs sysfsInfiniband with
  | none =>
      rw [hdir, hdevices] at hperm
      exact absurd hperm.symm.eq_nil (List.cons_ne_nil _ _)
  | some names =>
      rw [hdir, Option.getD_some] at hperm
      have hsort := Sorting.insertionSort_eq_of_perm id hperm hsorted
      simp only [id_eq] at hsort
      simp only [hsort, hdevices, List.map_cons]

/-- A port that is active and on Ethernet. -/
def Active (p : SysPort) : Prop :=
  (∃ m, p.state = some m ∧ Text.eqIgnoreAsciiCase m.last.text "ACTIVE") ∧
    ∃ w, p.linkLayer = some w ∧ Text.eqIgnoreAsciiCase w.text "Ethernet"

lemma active_iff (p : SysPort) :
    (Text.eqIgnoreAsciiCase p.read.state "ACTIVE" &&
      Text.eqIgnoreAsciiCase p.read.linkLayer "Ethernet") = true ↔ Active p := by
  rw [Bool.and_eq_true, SysPort.read, Active]
  refine and_congr ?_ ?_
  · cases p.state with
    | none => simp [show Text.eqIgnoreAsciiCase "" "ACTIVE" = false by decide]
    | some m => simp
  · cases p.linkLayer with
    | none => simp [show Text.eqIgnoreAsciiCase "" "Ethernet" = false by decide]
    | some w => simp

lemma anyActiveRoce_inventory (host : SysInfiniband) :
    host.inventory.anyActiveRoce ↔ ∃ d ∈ host.devices, ∃ p ∈ d.ports, Active p := by
  simp only [RdmaInventory.anyActiveRoce, SysInfiniband.inventory, SysDevice.read, List.any_eq_true,
    List.mem_map, exists_exists_and_eq_and, active_iff]

/-- **On a node that the prober takes, a probe finds a device.** The prober takes a node
exactly when it has a rack and, on some device, a port that is active and on Ethernet, as the
kernel showed it to the daemon. A probe that is started there without a device, and to which
the kernel shows the same devices in any order, runs on the one whose name comes first. -/
theorem select_of_eligible (h : Shows host sysfs dirs) (h' : Shows host sysfs' dirs')
    {topology : NodeTopology} (hrdma : topology.rdma = RdmaInventory.scan sysfs dirs)
    (accels : List Accelerator) {n : Node} {name : String} (hname : n.isNamed name) :
    ((Prober.NodeView.fromNode (Admin.published sysfs topology accels n)).isSome ↔
      topology.rack.isSome ∧ ∃ d ∈ host.devices, ∃ p ∈ d.ports, Active p) ∧
    ((Prober.NodeView.fromNode (Admin.published sysfs topology accels n)).isSome →
      ∃ d ∈ host.devices, select dirs' none = .ok d.name ∧
        ∀ e ∈ host.devices, d.name ≤ e.name) := by
  have hview : (Prober.NodeView.fromNode (Admin.published sysfs topology accels n)).isSome ↔
      topology.rack.isSome ∧ ∃ d ∈ host.devices, ∃ p ∈ d.ports, Active p := by
    have hinventory : topology.rdma = host.inventory :=
      hrdma.trans (congrArg RdmaInventory.mk (devices_scan h))
    rw [← anyActiveRoce_inventory, ← hinventory]
    constructor
    · intro hsome
      obtain ⟨v, hv⟩ := Option.isSome_iff_exists.mp hsome
      obtain ⟨-, hrack, hactive, -, -⟩ :=
        (Admin.fromNode_published_eq_some_iff sysfs topology accels hname).mp hv
      exact ⟨by rw [hrack]; rfl, hactive⟩
    · rintro ⟨hrack, hactive⟩
      obtain ⟨r, hr⟩ := Option.isSome_iff_exists.mp hrack
      exact Option.isSome_iff_exists.mpr ⟨⟨name, _, _, r⟩,
        (Admin.fromNode_published_eq_some_iff sysfs topology accels hname).mpr
          ⟨rfl, hr, hactive, rfl, rfl⟩⟩
  refine ⟨hview, fun hsome => ?_⟩
  obtain ⟨-, d, hd, -⟩ := hview.mp hsome
  obtain ⟨first, rest, hdevices⟩ := List.exists_cons_of_ne_nil (List.ne_nil_of_mem hd)
  have hordered := host.ordered
  rw [hdevices] at hordered
  refine ⟨first, by rw [hdevices]; exact List.mem_cons_self, select_none_eq h' hdevices, ?_⟩
  rw [hdevices]
  exact List.forall_mem_cons.mpr
    ⟨le_refl _, fun e he => ((List.pairwise_cons.mp hordered).1 e he).le⟩

/-- The prober takes such a node, and its probes run on the device that is down. -/
theorem select_of_eligible_firstDown :
    ∃ d ∈ firstDown.devices, select (firstDownDirs ["mlx5_1", "mlx5_0"]) none = .ok d.name ∧
      ∀ e ∈ firstDown.devices, d.name ≤ e.name := by
  have hshows := shows_firstDown (List.Perm.refl _)
  have hreversed := shows_firstDown (List.Perm.swap "mlx5_0" "mlx5_1" [])
  have htaken := @select_of_eligible _ _ _ _ _ hshows hreversed
    ⟨none, some "r1", [], [], RdmaInventory.scan firstDownFiles
      (firstDownDirs ["mlx5_0", "mlx5_1"])⟩ rfl [] ⟨⟨some "node-a", none, none⟩, none⟩ "node-a" rfl
  refine htaken.2 (htaken.1.mpr ⟨rfl, firstDown.devices[1], List.getElem_mem _, _,
    List.mem_singleton.mpr rfl, ⟨_, rfl, by decide⟩, _, rfl, by decide⟩)

end Accelrd.Probe
