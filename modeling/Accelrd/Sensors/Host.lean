import Mathlib.Tactic
import Accelrd.Sensors.Amd
import Accelrd.Sensors.Mounts

/-!
`src/sensors/host.rs`: what a host measures of its memory, its disks and its power. Numbers
are exact.

* `snapshot`: the code.
* `Host.disks`: the disks of a host, as far as they can be asked for their sizes.
* `filter_free_snapshot`, `filter_total_snapshot`: what a snapshot has of the disks.
-/

namespace Accelrd.Sensors

open Std

/-- What is asked of a host: the files, the directories, and the total and free bytes of a
path. -/
structure Host where
  files : Sysfs
  listing : Listing
  statvfs : String → Option (ℕ × ℕ)

namespace Host

/-! ### Memory -/

/-- `str::split_once` for a colon. -/
def splitColon (line : List Char) : Option (List Char × List Char) :=
  match line.dropWhile (· ≠ ':') with
  | [] => none
  | _ :: rest => some (line.takeWhile (· ≠ ':'), rest)

/-- What a line of `/proc/meminfo` says. -/
def meminfoEntry (line : List Char) : Option (String × ℕ) := do
  let (key, rest) ← splitColon line
  let parts := Text.words Text.isWhitespace rest
  let num ← parts.head?
  let num ← Text.parseUnsigned 64 num
  let unit := String.ofList (parts[1]?.getD [])
  let factor := if unit = "kB" ∨ unit = "KB" then 1024 else if unit = "MB" then 1024 * 1024 else 1
  some (String.ofList (Text.trim key), min (num * factor) (2 ^ 64 - 1))

/-- `parse_meminfo_str`. -/
def parseMeminfoStr (content : String) : ExtTreeMap String ℕ :=
  ExtTreeMap.ofList ((Text.lines content.toList).filterMap meminfoEntry)

/-- `parse_meminfo`. -/
def parseMeminfo (host : Host) : ExtTreeMap String ℕ :=
  (host.files ["proc", "meminfo"]).elim ∅ parseMeminfoStr

/-- `memory_metrics`. -/
def memoryMetrics (host : Host) : List Measurement :=
  let map := host.parseMeminfo
  (map["MemTotal"]?.map fun v : ℕ => measurement "host.memory.total_bytes" "By"
    "MemTotal from /proc/meminfo — usable RAM as the kernel sees it." v).toList ++
  (map["MemAvailable"]?.map fun v : ℕ => measurement "host.memory.available_bytes" "By"
    "MemAvailable from /proc/meminfo — what userspace can actually allocate." v).toList ++
  match map["SwapTotal"]?, map["SwapFree"]? with
  | some swapTotal, some swapFree =>
      [measurement "host.memory.swap.total_bytes" "By" "SwapTotal from /proc/meminfo." swapTotal,
        measurement "host.memory.swap.used_bytes" "By" "SwapTotal - SwapFree."
          (swapTotal - swapFree : ℕ)]
  | _, _ => []

/-! ### Disks -/

/-- `real_mounts`. -/
def realMounts (host : Host) : List String :=
  (host.files ["proc", "self", "mountinfo"]).elim [] parseMountinfo

/-- A disk: where it is mounted, its size, and what of it is free. -/
structure Disk where
  mount : String
  total : ℕ
  free : ℕ
  deriving DecidableEq

/-- The disks that can be asked for their sizes. -/
def disks (host : Host) : List Disk :=
  host.realMounts.filterMap fun mount =>
    (host.statvfs mount).map fun sizes => ⟨mount, sizes.1, sizes.2⟩

/-- The measurement of the size of a disk. -/
def Disk.totalBytes (d : Disk) : Measurement :=
  ⟨"host.disk.total_bytes", "By", "Total bytes on a real (non-virtual) filesystem.", d.total,
    [("mount", d.mount)]⟩

/-- The measurement of what of a disk is free. -/
def Disk.freeBytes (d : Disk) : Measurement :=
  ⟨"host.disk.free_bytes", "By", "Free bytes available to non-root on a real filesystem.", d.free,
    [("mount", d.mount)]⟩

/-- `disk_metrics`. -/
def diskMetrics (host : Host) : List Measurement :=
  host.disks.flatMap fun d => [d.totalBytes, d.freeBytes]

/-! ### Power -/

/-- `SKIP_HWMON_NAMES`. -/
def skipHwmonNames : List String :=
  ["amdgpu", "i915", "xe", "nouveau", "nvidia", "nvme", "drivetemp"]

/-- `read_first_line`. -/
def readFirstLine (host : Host) (path : Path) : Option String :=
  (readStringFirstLine host.files path).filter (· ≠ "")

/-- `read_u64` of this module. -/
def readFirstU64 (host : Host) (path : Path) : Option ℕ :=
  (host.readFirstLine path).bind fun line => Text.parseUnsigned 64 line.toList

/-- The names that `power_input_files` returns. -/
def powerInputFiles (host : Host) (dir : Path) : List String :=
  ((host.listing dir).filter fun name =>
    Text.startsWith name "power" && (Text.stripSuffix name "_input").isSome).mergeSort

/-- The power rails of a directory of `hwmon`. -/
def hwmonPower (host : Host) (dir : Path) (source : String) : List Measurement :=
  (host.powerInputFiles dir).filterMap fun file =>
    (host.readFirstU64 (dir.join file)).map fun uw =>
      ⟨"host.power.usage", "W",
        "Instantaneous power draw from a non-GPU hwmon power_input (CPU/chassis/PSU).",
        (uw : ℚ) / 1000000,
        ("source", source) :: ((host.readFirstLine (dir.join (file.replace "_input" "_label"))).map
          fun label => ("rail", label)).toList⟩

/-- `power_metrics`. -/
def powerMetrics (host : Host) : List Measurement :=
  let hwmon : Path := ["sys", "class", "hwmon"]
  (host.listing hwmon).flatMap fun entry =>
    match host.readFirstLine ((hwmon.join entry).join "name") with
    | none => []
    | some name =>
        if name ∈ skipHwmonNames then [] else host.hwmonPower (hwmon.join entry) name

/-- `snapshot`. -/
def snapshot (host : Host) : List Measurement :=
  host.memoryMetrics ++ host.diskMetrics ++ host.powerMetrics

/-! ### The disks in a snapshot -/

lemma name_of_mem_memoryMetrics {host : Host} {m : Measurement} (hm : m ∈ host.memoryMetrics) :
    m.name ≠ "host.disk.free_bytes" ∧ m.name ≠ "host.disk.total_bytes" := by
  rw [memoryMetrics, List.mem_append, List.mem_append, Option.mem_toList, Option.mem_toList] at hm
  rcases hm with (hm | hm) | hm
  · obtain ⟨v, -, rfl⟩ := Option.map_eq_some_iff.mp hm
    simp [measurement]
  · obtain ⟨v, -, rfl⟩ := Option.map_eq_some_iff.mp hm
    simp [measurement]
  · split at hm
    · simp only [List.mem_cons, List.not_mem_nil, or_false] at hm
      rcases hm with rfl | rfl <;> simp [measurement]
    · exact absurd hm List.not_mem_nil

lemma name_of_mem_powerMetrics {host : Host} {m : Measurement} (hm : m ∈ host.powerMetrics) :
    m.name ≠ "host.disk.free_bytes" ∧ m.name ≠ "host.disk.total_bytes" := by
  obtain ⟨entry, -, hentry⟩ := List.mem_flatMap.mp hm
  split at hentry
  · exact absurd hentry List.not_mem_nil
  · split_ifs at hentry
    · exact absurd hentry List.not_mem_nil
    · obtain ⟨file, -, hfile⟩ := List.mem_filterMap.mp hentry
      obtain ⟨uw, -, rfl⟩ := Option.map_eq_some_iff.mp hfile
      simp

/-- What a snapshot has under the name of a gauge of the disks. -/
lemma filter_snapshot {name : String} (host : Host)
    (hname : name = "host.disk.free_bytes" ∨ name = "host.disk.total_bytes") :
    host.snapshot.filter (·.name = name) = host.diskMetrics.filter (·.name = name) := by
  have hmemory : host.memoryMetrics.filter (·.name = name) = [] := by
    refine List.filter_eq_nil_iff.mpr fun m hm => ?_
    obtain ⟨hfree, htotal⟩ := name_of_mem_memoryMetrics hm
    rcases hname with rfl | rfl <;> simp [hfree, htotal]
  have hpower : host.powerMetrics.filter (·.name = name) = [] := by
    refine List.filter_eq_nil_iff.mpr fun m hm => ?_
    obtain ⟨hfree, htotal⟩ := name_of_mem_powerMetrics hm
    rcases hname with rfl | rfl <;> simp [hfree, htotal]
  rw [snapshot, List.filter_append, List.filter_append, hmemory, hpower, List.nil_append,
    List.append_nil]

/-- **The free bytes in a snapshot**: one measurement for each disk. -/
lemma filter_free_snapshot (host : Host) :
    host.snapshot.filter (·.name = "host.disk.free_bytes") = host.disks.map Disk.freeBytes := by
  rw [filter_snapshot host (Or.inl rfl), diskMetrics]
  induction host.disks with
  | nil => rfl
  | cons d disks ih =>
      rw [List.flatMap_cons, List.filter_append, ih]
      rfl

/-- **The sizes in a snapshot**: one measurement for each disk. -/
lemma filter_total_snapshot (host : Host) :
    host.snapshot.filter (·.name = "host.disk.total_bytes") = host.disks.map Disk.totalBytes := by
  rw [filter_snapshot host (Or.inr rfl), diskMetrics]
  induction host.disks with
  | nil => rfl
  | cons d disks ih =>
      rw [List.flatMap_cons, List.filter_append, ih]
      rfl

/-- No two disks are mounted on one path. -/
lemma nodup_mount_disks (host : Host) : (host.disks.map Disk.mount).Nodup := by
  have hmounts : host.realMounts.Nodup := by
    rw [realMounts]
    cases host.files ["proc", "self", "mountinfo"] with
    | none => exact List.nodup_nil
    | some content => exact nodup_parseMountinfo content
  have hsub : (host.disks.map Disk.mount).Sublist host.realMounts := by
    rw [disks]
    induction host.realMounts with
    | nil => exact List.Sublist.refl _
    | cons mount mounts ih =>
        cases hsizes : host.statvfs mount with
        | none => simpa [hsizes] using ih.cons mount
        | some sizes => simpa [hsizes] using ih.cons_cons mount
  exact hmounts.sublist hsub

end Host

end Accelrd.Sensors
