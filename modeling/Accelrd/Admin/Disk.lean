import Mathlib.Tactic
import Accelrd.Admin.Fleet
import Accelrd.Telemetry.Health

/-!
The disks of a node, as the preflight check `HostDiskFree` and the fleet view of the admin
see them: `src/telemetry/live.rs`, `src/preflight/health.rs` and `fleet` of
`src/admin/routes.rs`.

* `hostResponse`: what the metric store answers for a gauge of the hosts.
* `getElem?_latestByNode_host`: the maximum of a node is that of its disks.
* `ShowsLargest`: the check and the fleet view speak of one disk of the node, the largest.
* `showsLargest_iff`: when they do.
-/

namespace Accelrd.Admin

open Std Sensors Telemetry
open Host (Disk)

/-! ### What the store answers -/

/-- A daemon on a node, with what it asks of its host. -/
structure HostDaemon where
  inst : String
  node : String
  host : Host

/-- The group of a series that `host_tick` records: the labels of the process and the
attributes of the measurement, and one point. -/
def hostGroup (time : ℚ) (d : HostDaemon) (m : Measurement) : Value :=
  .obj [("labels_example", .obj ([("r:service.instance.id", .str d.inst),
      ("r:k8s.node.name", .str d.node)] ++ m.attrs.map fun a => (a.1, .str a.2))),
    ("points", .arr [.arr [.num time, .num m.value]])]

/-- The answer for a gauge of the hosts. -/
def hostResponse (time : ℚ) (daemons : List HostDaemon) (name : String) : Value :=
  .obj [("groups", .arr (daemons.flatMap fun d =>
    (d.host.snapshot.filter (·.name = name)).map (hostGroup time d)))]

/-- A metric store with the gauges of the disks. -/
def diskAnswers (time : ℚ) (daemons : List HostDaemon) (others : String → Except String Value)
    (name : String) : Except String Value :=
  if name = "host.disk.free_bytes" ∨ name = "host.disk.total_bytes" then
    .ok (hostResponse time daemons name)
  else others name

lemma sample_hostGroup (time : ℚ) (d : HostDaemon) (m : Measurement) :
    sample (hostGroup time d m) = if d.node = "" then none else some (d.node, m.value) := rfl

/-- The values of a node are those of its daemons. -/
lemma mem_samplesOf_hostResponse {time : ℚ} {daemons : List HostDaemon} {name node : String}
    (hnode : node ≠ "") {v : ℚ} :
    v ∈ samplesOf (hostResponse time daemons name) node ↔
      ∃ d ∈ daemons, d.node = node ∧
        ∃ m ∈ d.host.snapshot.filter (·.name = name), m.value = v := by
  rw [samplesOf, Rollup.mem_valuesOf, List.mem_filterMap]
  constructor
  · rintro ⟨g, hg, hsample⟩
    obtain ⟨d, hd, hg⟩ := List.mem_flatMap.mp hg
    obtain ⟨m, hm, rfl⟩ := List.mem_map.mp hg
    rw [sample_hostGroup] at hsample
    split_ifs at hsample
    obtain ⟨rfl, rfl⟩ := Prod.mk.inj (Option.some.inj hsample)
    exact ⟨d, hd, rfl, m, hm, rfl⟩
  · rintro ⟨d, hd, rfl, m, hm, rfl⟩
    refine ⟨hostGroup time d m, List.mem_flatMap.mpr ⟨d, hd, List.mem_map_of_mem hm⟩, ?_⟩
    rw [sample_hostGroup, if_neg hnode]

/-- **The maximum of a node**, all of whose daemons see one host. -/
lemma getElem?_latestByNode_host {time : ℚ} {daemons : List HostDaemon} {d : HostDaemon}
    {name : String} (hd : d ∈ daemons) (hnode : d.node ≠ "")
    (hsame : ∀ d' ∈ daemons, d'.node = d.node → d'.host = d.host) {v : ℚ} :
    (latestByNode .max (hostResponse time daemons name))[d.node]? = some v ↔
      (∃ m ∈ d.host.snapshot.filter (·.name = name), m.value = v) ∧
        ∀ m ∈ d.host.snapshot.filter (·.name = name), m.value ≤ v := by
  have hmem (x : ℚ) : x ∈ samplesOf (hostResponse time daemons name) d.node ↔
      ∃ m ∈ d.host.snapshot.filter (·.name = name), m.value = x := by
    rw [mem_samplesOf_hostResponse hnode]
    constructor
    · rintro ⟨d', hd', heq, m, hm, rfl⟩
      rw [hsame d' hd' heq] at hm
      exact ⟨m, hm, rfl⟩
    · rintro ⟨m, hm, rfl⟩
      exact ⟨d, hd, rfl, m, hm, rfl⟩
  have hmax : (latestByNode .max (hostResponse time daemons name))[d.node]? =
      (samplesOf (hostResponse time daemons name) d.node).max? := by
    rw [getElem?_latestByNode, NodeRollup.roll]
    split_ifs with hnil
    · rw [hnil]
      rfl
    · rfl
  rw [hmax, List.max?_eq_some_iff, hmem]
  refine and_congr_right fun _ => ⟨fun h m hm => h _ ((hmem _).mpr ⟨m, hm, rfl⟩), ?_⟩
  intro h x hx
  obtain ⟨m, hm, rfl⟩ := (hmem x).mp hx
  exact h m hm

/-! ### The largest disk -/

/-- **The largest disk is shown**: the check passes if this one has enough free bytes and
reports it, and the fleet view has its figures. -/
structure ShowsLargest (check : HostDiskFree) (shown : FleetResponse) (d : HostDaemon)
    (largest : Disk) : Prop where
  passes : (check.run d.host).status = .pass ↔ check.minFreeBytes ≤ largest.free
  reports : (check.run d.host).measurements.flatMap Measurement.attrs = [("mount", largest.mount)]
  free : shown.byNode[d.node]?.bind (·.diskFreeBytes) = some (largest.free : ℚ)
  total : shown.byNode[d.node]?.bind (·.diskTotalBytes) = some (largest.total : ℚ)

/-- The maximum of a figure of the disks. -/
lemma getElem?_latestByNode_disks {time : ℚ} {daemons : List HostDaemon} {d : HostDaemon}
    {name : String} {figure : Disk → ℕ} {gauge : Disk → Measurement} (hd : d ∈ daemons)
    (hnode : d.node ≠ "") (hsame : ∀ d' ∈ daemons, d'.node = d.node → d'.host = d.host)
    (hfilter : d.host.snapshot.filter (·.name = name) = d.host.disks.map gauge)
    (hgauge : ∀ D, (gauge D).value = figure D) {n : ℕ} :
    (latestByNode .max (hostResponse time daemons name))[d.node]? = some (n : ℚ) ↔
      (∃ D ∈ d.host.disks, figure D = n) ∧ ∀ D ∈ d.host.disks, figure D ≤ n := by
  rw [getElem?_latestByNode_host hd hnode hsame, hfilter, List.forall_mem_map]
  simp only [List.mem_map, exists_exists_and_eq_and, hgauge, Nat.cast_inj, Nat.cast_le]

section Shown

variable (time : ℚ) (daemons : List HostDaemon) (others : String → Except String Value)

/-- The free bytes in the fleet view. -/
lemma diskFreeBytes_byNode (node : String) :
    (fleet (diskAnswers time daemons others)).byNode[node]?.bind (·.diskFreeBytes) =
      (latestByNode .max (hostResponse time daemons "host.disk.free_bytes"))[node]? :=
  @shown_byNode _ _ (rollups (diskAnswers time daemons others)).diskFree (fun _ => rfl)
    (fun _ hmem => Rollups.mem_nodes.mpr ⟨_, by simp, hmem⟩) node

/-- The size in the fleet view. -/
lemma diskTotalBytes_byNode (node : String) :
    (fleet (diskAnswers time daemons others)).byNode[node]?.bind (·.diskTotalBytes) =
      (latestByNode .max (hostResponse time daemons "host.disk.total_bytes"))[node]? :=
  @shown_byNode _ _ (rollups (diskAnswers time daemons others)).diskTotal (fun _ => rfl)
    (fun _ hmem => Rollups.mem_nodes.mpr ⟨_, by simp, hmem⟩) node

end Shown

/-- A host has no two disks of one name. -/
lemma eq_of_mount_eq {host : Host} {D E : Disk} (hD : D ∈ host.disks) (hE : E ∈ host.disks)
    (h : D.mount = E.mount) : D = E :=
  List.inj_on_of_nodup_map host.nodup_mount_disks hD hE h

/-- What the check says of a disk. -/
lemma outcomeOf_spec (check : HostDiskFree) (D : Disk) :
    ((check.outcomeOf D).status = .pass ↔ check.minFreeBytes ≤ D.free) ∧
      (check.outcomeOf D).measurements.flatMap Measurement.attrs = [("mount", D.mount)] := by
  rw [HostDiskFree.outcomeOf]
  split_ifs with hfree
  · exact ⟨by simpa using hfree, rfl⟩
  · exact ⟨by simpa using hfree, rfl⟩

/-- The check reports a disk if it is the first of those with the most free bytes. -/
lemma reports_iff {check : HostDiskFree} {host : Host} {L : Disk} (hL : L ∈ host.disks) :
    (check.run host).measurements.flatMap Measurement.attrs = [("mount", L.mount)] ↔
      host.disks.argmax Disk.free = some L := by
  rw [HostDiskFree.run_eq]
  cases hbest : host.disks.argmax Disk.free with
  | none =>
      rw [List.argmax_eq_none.mp hbest] at hL
      exact absurd hL List.not_mem_nil
  | some D =>
      rw [Option.map_some, Option.getD_some, (outcomeOf_spec check D).2, Option.some_inj]
      constructor
      · intro h
        have hmount := (Prod.mk.inj (List.singleton_inj.mp h)).2
        exact eq_of_mount_eq (List.argmax_mem hbest) hL hmount
      · rintro rfl
        rfl

/-- **When the largest disk is shown**: if no disk has more free bytes, and none that is
listed before it has as many. -/
theorem showsLargest_iff (check : HostDiskFree) (time : ℚ) (daemons : List HostDaemon)
    (others : String → Except String Value) (d : HostDaemon) (L : Disk) (hd : d ∈ daemons)
    (hnode : d.node ≠ "") (hsame : ∀ d' ∈ daemons, d'.node = d.node → d'.host = d.host)
    (hL : L ∈ d.host.disks) (hlargest : ∀ D ∈ d.host.disks, D.total ≤ L.total) :
    ShowsLargest check (fleet (diskAnswers time daemons others)) d L ↔
      (∀ D ∈ d.host.disks, D.free ≤ L.free) ∧
        ∀ D ∈ d.host.disks, D.free = L.free → d.host.disks.idxOf L ≤ d.host.disks.idxOf D := by
  have hfree := @getElem?_latestByNode_disks time daemons d _ _ Disk.freeBytes hd hnode hsame
    d.host.filter_free_snapshot (fun _ => rfl) L.free
  have htotal := @getElem?_latestByNode_disks time daemons d _ _ Disk.totalBytes hd hnode hsame
    d.host.filter_total_snapshot (fun _ => rfl) L.total
  have hfirst : d.host.disks.argmax Disk.free = some L ↔
      (∀ D ∈ d.host.disks, D.free ≤ L.free) ∧
        ∀ D ∈ d.host.disks, D.free = L.free → d.host.disks.idxOf L ≤ d.host.disks.idxOf D := by
    refine List.mem_argmax_iff.trans ((and_iff_right hL).trans (and_congr_right fun hmost => ?_))
    refine forall₂_congr fun D hD => imp_congr_left ⟨fun h => ?_, fun h => h.ge⟩
    exact Nat.le_antisymm (hmost D hD) h
  rw [← hfirst]
  constructor
  · intro h
    exact (reports_iff hL).mp h.reports
  · intro hbest
    have hrun : check.run d.host = check.outcomeOf L := by rw [HostDiskFree.run_eq, hbest]; rfl
    refine ⟨?passes, (reports_iff hL).mpr hbest, ?free, ?total⟩
    case passes =>
      rw [hrun]
      exact (outcomeOf_spec check L).1
    case free =>
      rw [diskFreeBytes_byNode]
      exact hfree.mpr ⟨⟨L, hL, rfl⟩, (hfirst.mp hbest).1⟩
    case total =>
      rw [diskTotalBytes_byNode]
      exact htotal.mpr ⟨⟨L, hL, rfl⟩, hlargest⟩

/-- A host with a disk of 4 TiB at `/` and one of 1 TiB at `/data`, and what of them is free. -/
def twoDisks (rootFree dataFree : ℕ) : Host where
  files path :=
    if path = ["proc", "self", "mountinfo"] then
      some "26 1 254:0 / / rw - ext4 /dev/sda1 rw\n27 26 254:1 / /data rw - xfs /dev/sdb1 rw\n"
    else none
  listing _ := []
  statvfs mount :=
    if mount = "/" then some (4 * 2 ^ 40, rootFree)
    else if mount = "/data" then some (2 ^ 40, dataFree) else none

lemma disks_twoDisks (rootFree dataFree : ℕ) :
    (twoDisks rootFree dataFree).disks =
      [⟨"/", 4 * 2 ^ 40, rootFree⟩, ⟨"/data", 2 ^ 40, dataFree⟩] := by
  have hmounts : (twoDisks rootFree dataFree).realMounts = ["/", "/data"] := by
    change parseMountinfo _ = _
    decide +kernel
  rw [Host.disks, hmounts]
  rfl

/-- The daemon of such a host. -/
def twoDisksDaemon (rootFree dataFree : ℕ) : HostDaemon :=
  ⟨"pod-1", "lun-hisame", twoDisks rootFree dataFree⟩

/-- The largest disk is shown where it has the most free bytes. -/
theorem showsLargest_twoDisks :
    ShowsLargest HostDiskFree.default
      (fleet (diskAnswers 0 [twoDisksDaemon (2 ^ 40) (2 ^ 39)] fun _ => .error "GET status"))
      (twoDisksDaemon (2 ^ 40) (2 ^ 39)) ⟨"/", 4 * 2 ^ 40, 2 ^ 40⟩ := by
  have hdisks := disks_twoDisks (2 ^ 40) (2 ^ 39)
  refine (showsLargest_iff HostDiskFree.default 0 [twoDisksDaemon (2 ^ 40) (2 ^ 39)]
    (fun _ => .error "GET status") (twoDisksDaemon (2 ^ 40) (2 ^ 39)) ⟨"/", 4 * 2 ^ 40, 2 ^ 40⟩
    (List.mem_singleton_self _) (by decide) (fun d' hd' _ => ?_) ?_ ?_).mpr ⟨?_, ?_⟩
  · rw [List.mem_singleton.mp hd']
  · exact hdisks ▸ List.mem_cons_self
  · exact hdisks ▸ by decide
  · exact hdisks ▸ by decide
  · exact hdisks ▸ by decide

/-- A full disk of 4 TiB passes for its free neighbour. -/
theorem full_disk_not_shown :
    (twoDisks (10 * 2 ^ 30) (300 * 2 ^ 30)).disks =
      [⟨"/", 4 * 2 ^ 40, 10 * 2 ^ 30⟩, ⟨"/data", 2 ^ 40, 300 * 2 ^ 30⟩] ∧
    (HostDiskFree.default.run (twoDisks (10 * 2 ^ 30) (300 * 2 ^ 30))).status = .pass ∧
    ¬ShowsLargest HostDiskFree.default
      (fleet (diskAnswers 0 [twoDisksDaemon (10 * 2 ^ 30) (300 * 2 ^ 30)]
        fun _ => .error "GET status"))
      (twoDisksDaemon (10 * 2 ^ 30) (300 * 2 ^ 30)) ⟨"/", 4 * 2 ^ 40, 10 * 2 ^ 30⟩ := by
  have hdisks := disks_twoDisks (10 * 2 ^ 30) (300 * 2 ^ 30)
  have hpass : (HostDiskFree.default.run (twoDisks (10 * 2 ^ 30) (300 * 2 ^ 30))).status =
      .pass := by
    rw [HostDiskFree.run_eq, hdisks]
    decide
  refine ⟨hdisks, hpass, fun h => ?_⟩
  have hfree := h.passes.mp hpass
  exact absurd hfree (by decide)

end Accelrd.Admin
