import Mathlib.Tactic
import Accelrd.Admin.Mutel
import Accelrd.Sensors

/-!
`src/sensors/amd.rs`: what the backend for AMD cards measures, and what of it
`src/telemetry/live.rs` records for each card. Numbers are exact.

* `snapshot`: the code.
* `filter_utilization_snapshot`: the one measurement of `accel.utilization` in a snapshot.
* `Daemon`, `Daemon.utilizationSeries`: the series of a daemon.
-/

namespace Accelrd.Sensors

/-- `Measurement`. -/
structure Measurement where
  name : String
  unit : String
  description : String
  value : ℚ
  attrs : List (String × String)

/-- `measurement`. -/
def measurement (name unit description : String) (value : ℚ) : Measurement :=
  ⟨name, unit, description, value, []⟩

/-! ### Readers -/

/-- The names in each directory that can be listed. -/
abbrev Listing : Type := Path → List String

/-- The value of a hexadecimal digit. -/
def hexDigit (c : Char) : Option ℕ :=
  if c.isDigit then some (c.toNat - '0'.toNat)
  else if 'a' ≤ c ∧ c ≤ 'f' then some (c.toNat - 'a'.toNat + 10)
  else if 'A' ≤ c ∧ c ≤ 'F' then some (c.toNat - 'A'.toNat + 10)
  else none

/-- `u16::from_str_radix` with radix 16. -/
def parseHexU16 (cs : List Char) : Option ℕ :=
  let digits := match cs with
    | '+' :: r => r
    | r => r
  match digits.mapM hexDigit with
  | some ds =>
      if ds ≠ [] ∧ Nat.ofDigits 16 ds.reverse < 2 ^ 16 then some (Nat.ofDigits 16 ds.reverse)
      else none
  | none => none

/-- `trim_start_matches("0x")`. -/
def trimHexMarks : List Char → List Char
  | '0' :: 'x' :: cs => trimHexMarks cs
  | cs => cs

/-- `read_hex_u16`. -/
def readHexU16 (sysfs : Sysfs) (path : Path) : Option ℕ :=
  (sysfs path).bind fun s => parseHexU16 (trimHexMarks (Text.trim s.toList))

/-- `read_string_first_line`. -/
def readStringFirstLine (sysfs : Sysfs) (path : Path) : Option String :=
  (sysfs path).bind fun s =>
    (Text.lines s.toList).head?.map fun line => String.ofList (Text.trim line)

/-- `Vendor::from_pci_id`. -/
def Vendor.fromPciId (id : ℕ) : Vendor :=
  if id = 0x1002 then .amd
  else if id = 0x10de then .nvidia
  else if id = 0x8086 then .intel
  else .other

/-- `card_vendor`. -/
def cardVendor (sysfs : Sysfs) (deviceDir : Path) : Vendor :=
  ((readHexU16 sysfs (deviceDir.join "vendor")).map Vendor.fromPciId).getD .other

/-- `hwmon_dirs`. -/
def hwmonDirs (listing : Listing) (deviceDir : Path) : List Path :=
  ((listing (deviceDir.join "hwmon")).filter (Text.startsWith · "hwmon")).map
    (deviceDir.join "hwmon").join

/-- `sensor_health`. -/
def sensorHealth (sysfs : Sysfs) (deviceDir : Path) (expected : Vendor) : Measurement :=
  measurement "accel.sensor.health" "1" "1 = sensor reads succeeding, 0 = backend broken."
    (if cardVendor sysfs deviceDir = expected then 1 else 0)

/-! ### The backend -/

/-- `DIAGNOSTIC_MEMORY_METRICS`. -/
def diagnosticMemoryMetrics : List (String × String × String) :=
  [("mem_info_gtt_total", "accel.memory.gtt.total",
      "GTT (host aperture) size — half of system RAM on most amdgpu setups."),
    ("mem_info_gtt_used", "accel.memory.gtt.used",
      "Used GTT bytes — small on idle hosts, grows under workload."),
    ("mem_info_visible_vram_total", "accel.memory.visible_vram.total",
      "CPU-visible portion of VRAM (BAR1/Resizable-BAR aperture).")]

/-- `hwmon_label`. -/
def hwmonLabel (sysfs : Sysfs) (hw : Path) (label : String) : String :=
  (readStringFirstLine sysfs (hw.join (label ++ "_label"))).getD label

/-- What a file gives a measurement of, if it can be read. -/
def gauge (sysfs : Sysfs) (path : Path) (m : ℕ → Measurement) : List Measurement :=
  ((readU64 sysfs path).map m).toList

/-- The measurements of the memory. -/
def memoryMeasurements (sysfs : Sysfs) (dir : Path) : List Measurement :=
  gauge sysfs (dir.join "mem_info_vram_total") (fun v =>
    measurement "accel.memory.total" "By" "Accelerator memory total (mem_info_vram_total)." v) ++
  gauge sysfs (dir.join "mem_info_vram_used") (fun v =>
    measurement "accel.memory.used" "By" "Accelerator memory used (mem_info_vram_used)." v) ++
  diagnosticMemoryMetrics.flatMap fun d =>
    gauge sysfs (dir.join d.1) fun v => measurement d.2.1 "By" d.2.2 v

/-- `gpu_busy_percent` of a card. -/
def busyPercent (sysfs : Sysfs) (dir : Path) : Option ℕ :=
  readU64 sysfs (dir.join "gpu_busy_percent")

/-- The measurement of the utilization. -/
def utilizationMeasurement (v : ℕ) : Measurement :=
  measurement "accel.utilization" "1" "Approximate GPU busy fraction (gpu_busy_percent / 100)."
    (v / 100)

/-- The measurements of a directory of `hwmon`. -/
def hwmonMeasurements (sysfs : Sysfs) (hw : Path) : List Measurement :=
  gauge sysfs (hw.join "temp1_input") (fun t =>
    ⟨"accel.temperature", "Cel", "Edge or junction temperature from hwmon temp1.", t / 1000,
      [("sensor", hwmonLabel sysfs hw "temp1")]⟩) ++
  gauge sysfs (hw.join "power1_average") fun p =>
    measurement "accel.power.usage" "W" "Average board power from hwmon power1_average."
      (p / 1000000)

/-- `AmdSysfsSensor::snapshot`. -/
def snapshot (sysfs : Sysfs) (listing : Listing) (accel : Accelerator) : List Measurement :=
  let dir := accel.deviceDir
  memoryMeasurements sysfs dir ++ ((busyPercent sysfs dir).map utilizationMeasurement).toList ++
    (hwmonDirs listing dir).flatMap (hwmonMeasurements sysfs) ++ [sensorHealth sysfs dir .amd]

/-! ### What is recorded -/

lemma exists_of_mem_gauge {sysfs : Sysfs} {path : Path} {m : ℕ → Measurement} {x : Measurement}
    (hx : x ∈ gauge sysfs path m) : ∃ v, x = m v := by
  obtain ⟨v, -, hv⟩ := Option.map_eq_some_iff.mp (Option.mem_toList.mp hx)
  exact ⟨v, hv.symm⟩

lemma name_of_mem_memoryMeasurements {sysfs : Sysfs} {dir : Path} {m : Measurement}
    (hm : m ∈ memoryMeasurements sysfs dir) : m.name ≠ "accel.utilization" := by
  have hdiagnostic : ∀ d ∈ diagnosticMemoryMetrics, d.2.1 ≠ "accel.utilization" := by decide
  rw [memoryMeasurements, List.mem_append, List.mem_append, List.mem_flatMap] at hm
  rcases hm with (hm | hm) | ⟨d, hd, hm⟩
  · obtain ⟨v, rfl⟩ := exists_of_mem_gauge hm
    simp [measurement]
  · obtain ⟨v, rfl⟩ := exists_of_mem_gauge hm
    simp [measurement]
  · obtain ⟨v, rfl⟩ := exists_of_mem_gauge hm
    exact hdiagnostic d hd

lemma name_of_mem_hwmonMeasurements {sysfs : Sysfs} {hw : Path} {m : Measurement}
    (hm : m ∈ hwmonMeasurements sysfs hw) : m.name ≠ "accel.utilization" := by
  rw [hwmonMeasurements, List.mem_append] at hm
  rcases hm with hm | hm
  · obtain ⟨v, rfl⟩ := exists_of_mem_gauge hm
    simp
  · obtain ⟨v, rfl⟩ := exists_of_mem_gauge hm
    simp [measurement]

/-- **The utilization in a snapshot** is the reading as a fraction. -/
lemma filter_utilization_snapshot (sysfs : Sysfs) (listing : Listing) (accel : Accelerator) :
    (snapshot sysfs listing accel).filter (·.name = "accel.utilization") =
      ((busyPercent sysfs accel.deviceDir).map utilizationMeasurement).toList := by
  have hmemory : (memoryMeasurements sysfs accel.deviceDir).filter
      (·.name = "accel.utilization") = [] :=
    List.filter_eq_nil_iff.mpr fun m hm => by simpa using name_of_mem_memoryMeasurements hm
  have hhwmon : ((hwmonDirs listing accel.deviceDir).flatMap (hwmonMeasurements sysfs)).filter
      (·.name = "accel.utilization") = [] := by
    rw [List.filter_eq_nil_iff]
    intro m hm
    obtain ⟨hw, -, hm⟩ := List.mem_flatMap.mp hm
    simpa using name_of_mem_hwmonMeasurements hm
  have hhealth : [sensorHealth sysfs accel.deviceDir .amd].filter
      (·.name = "accel.utilization") = [] :=
    rfl
  have hkept : ((busyPercent sysfs accel.deviceDir).map utilizationMeasurement).toList.filter
      (·.name = "accel.utilization") =
        ((busyPercent sysfs accel.deviceDir).map utilizationMeasurement).toList := by
    cases busyPercent sysfs accel.deviceDir with
    | none => rfl
    | some v => rfl
  rw [snapshot, List.filter_append, List.filter_append, List.filter_append, hmemory, hkept,
    hhwmon, hhealth, List.nil_append, List.append_nil, List.append_nil]

/-- A daemon on a node: the process, what it reads, and the cards it has enumerated. -/
structure Daemon where
  inst : String
  node : String
  sysfs : Sysfs
  listing : Listing
  accels : List Accelerator

/-- The cards whose snapshots the AMD backend takes. -/
def Daemon.amdCards (d : Daemon) : List Accelerator := d.accels.filter (·.id.vendor = .amd)

/-- What `tick` records of `accel.utilization`, which no other backend measures. -/
def Daemon.utilizationSeries (time : ℚ) (d : Daemon) : List Admin.Series :=
  d.amdCards.flatMap fun a =>
    ((snapshot d.sysfs d.listing a).filter (·.name = "accel.utilization")).map fun m =>
      ⟨d.inst, d.node, a.id.pciAddr, time, m.value⟩

/-- The readings of `gpu_busy_percent` that the cards report. -/
def Daemon.busyPercents (d : Daemon) : List ℕ :=
  d.amdCards.filterMap fun a => busyPercent d.sysfs a.deviceDir

lemma Daemon.node_of_mem_utilizationSeries {time : ℚ} {d : Daemon} {s : Admin.Series}
    (hs : s ∈ d.utilizationSeries time) : s.node = d.node := by
  obtain ⟨a, -, ha⟩ := List.mem_flatMap.mp hs
  obtain ⟨m, -, rfl⟩ := List.mem_map.mp ha
  rfl

/-- Each reading is recorded as a fraction. -/
lemma Daemon.map_value_utilizationSeries (time : ℚ) (d : Daemon) :
    (d.utilizationSeries time).map Admin.Series.value =
      d.busyPercents.map fun b : ℕ => (b : ℚ) / 100 := by
  rw [utilizationSeries, busyPercents]
  induction d.amdCards with
  | nil => rfl
  | cons a cards ih =>
      rw [List.flatMap_cons, List.map_append, ih, filter_utilization_snapshot,
        List.filterMap_cons]
      cases busyPercent d.sysfs a.deviceDir with
      | none => rfl
      | some b => rfl

end Accelrd.Sensors
