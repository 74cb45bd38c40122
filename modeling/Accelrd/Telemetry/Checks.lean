import Mathlib.Tactic
import Accelrd.Sensors.Enumerate
import Accelrd.Telemetry.Cycle
import Accelrd.Telemetry.Health

/-!
The other checks of `src/preflight/health.rs`, `src/preflight/placeholder.rs`, and the
registry of `src/preflight/mod.rs`: what the files of a node have to say for it to be ready.

* `SensorReadable.run`, …, `AlwaysPass.run`: the code.
* `CardTrouble`, `HostTrouble`: what is wrong with a card, or with the host, read off from
  the files.
* `troubles`: what is wrong with a node, in the order in which it is listed.
* `readiness_defaultRegistry`: the registry publishes these and nothing else.
-/

namespace Accelrd.Telemetry

open Std Sensors Accelrd.Topology

/-! ### What the checks look at -/

/-- `Path::file_name`. -/
def fileName (p : Path) : Option String := p.getLast?.filter (· ≠ "..")

/-- A path as it is displayed. -/
def display (p : Path) : String := "/" ++ "/".intercalate p

/-- An accelerator id as it is displayed. -/
def displayId (id : AcceleratorId) : String :=
  "card" ++ toString id.drmIndex ++ " [" ++ id.pciAddr ++ "] " ++ id.vendor.slug

/-- `CheckOutcome::skipped`. -/
def CheckOutcome.skipped : CheckOutcome := ⟨.skipped, none, []⟩

/-- `CheckOutcome::pass`. -/
def CheckOutcome.pass : CheckOutcome := ⟨.pass, none, []⟩

/-- `CheckOutcome::fail`. -/
def CheckOutcome.fail (msg : String) : CheckOutcome := ⟨.fail, some msg, []⟩

/-- `CheckOutcome::warn`. -/
def CheckOutcome.warn (msg : String) : CheckOutcome := ⟨.warn, some msg, []⟩

/-- `accel_or_skip!`. -/
def accelOrSkip (accel : Option Accelerator) (run : Accelerator → CheckOutcome) : CheckOutcome :=
  match accel with
  | some a => run a
  | none => .skipped

/-! ### The checks of a card -/

/-- `run` of `SensorReadable`. -/
def SensorReadable.run (accel : Option Accelerator) : CheckOutcome :=
  accelOrSkip accel fun a =>
    match a.coverage with
    | .failed => .fail ("sensor backend reports Failed coverage for " ++ displayId a.id)
    | .identificationOnly => .pass
    | .full => .pass

/-- Is there a render node under the device? -/
def hasRenderNode (view : HostView) (a : Accelerator) : Bool :=
  (view.listing (a.deviceDir.join "drm")).any (Text.startsWith · "renderD")

/-- `run` of `DrmRenderNodePresent`. -/
def DrmRenderNodePresent.run (view : HostView) (accel : Option Accelerator) : CheckOutcome :=
  accelOrSkip accel fun a =>
    if hasRenderNode view a then .pass
    else .fail ("no renderD node under " ++ display (a.deviceDir.join "drm"))

/-- `accepts_driver`. -/
def acceptsDriver (vendor : Vendor) (name : String) : Bool :=
  match vendor with
  | .amd => name = "amdgpu"
  | .nvidia => name = "nvidia"
  | .intel => name = "i915" || name = "xe"
  | .other => false

/-- `expected_driver`. -/
def expectedDriver : Vendor → String
  | .amd => "amdgpu"
  | .nvidia => "nvidia"
  | .intel => "i915 or xe"
  | .other => "?"

/-- `run` of `DriverLoaded`. -/
def DriverLoaded.run (view : HostView) (accel : Option Accelerator) : CheckOutcome :=
  accelOrSkip accel fun a =>
    match view.links (a.deviceDir.join "driver") with
    | none => .fail "device/driver symlink missing — kernel module not bound?"
    | some target =>
        let driverName := (fileName target).getD "?"
        if acceptsDriver a.id.vendor driverName then .pass
        else .warn ("driver=" ++ driverName ++ ", expected " ++ expectedDriver a.id.vendor)

/-- `TemperatureBelowThrottle`, for a threshold in whole degrees. -/
structure TemperatureBelowThrottle where
  thresholdCelsius : ℕ

namespace TemperatureBelowThrottle

/-- The default. -/
def default : TemperatureBelowThrottle := ⟨95⟩

/-- A temperature in whole thousandths of a degree, with one decimal. -/
def showTenths (celsius : ℚ) : String :=
  Binary64.toFixed 1 (Binary64.ofDecimal false ⌊celsius * 1000⌋₊ (-3))

/-- `run`. -/
def run (check : TemperatureBelowThrottle) (view : HostView) (accel : Option Accelerator) :
    CheckOutcome :=
  accelOrSkip accel fun a =>
    match hwmonTemperatureCelsius view a.deviceDir with
    | none => .skippedWith "no hwmon temp1_input on this accelerator"
    | some tempC =>
        let measurements := [measurement "accel.preflight.temperature" "Cel"
          "Temperature observed by the throttle preflight check." tempC]
        let warnThreshold : ℚ := check.thresholdCelsius - 10
        if tempC ≥ check.thresholdCelsius then
          ⟨.fail, some ("temperature " ++ showTenths tempC ++ " °C ≥ " ++
            toString check.thresholdCelsius ++ " °C threshold"), measurements⟩
        else if tempC ≥ warnThreshold then
          ⟨.warn, some ("temperature " ++ showTenths tempC ++
            " °C is within 10 °C of threshold"), measurements⟩
        else ⟨.pass, none, measurements⟩

end TemperatureBelowThrottle

/-- `MemoryFloor`. -/
structure MemoryFloor where
  minFreeBytes : ℕ

namespace MemoryFloor

/-- The default. -/
def default : MemoryFloor := ⟨2 ^ 30⟩

/-- `run`. -/
def run (check : MemoryFloor) (view : HostView) (accel : Option Accelerator) : CheckOutcome :=
  accelOrSkip accel fun a =>
    if a.coverage = .identificationOnly then
      .skippedWith "identification-only sensor cannot report free memory"
    else
      match readU64 view.files (a.deviceDir.join "mem_info_vram_total") with
      | none => .skippedWith "missing mem_info_vram_total"
      | some total =>
          let used := (readU64 view.files (a.deviceDir.join "mem_info_vram_used")).getD 0
          let free := total - used
          let measurements := [measurement "accel.preflight.memory.free" "By"
            "Free memory observed by the floor preflight check." free]
          if free < check.minFreeBytes then
            ⟨.fail, some ("free " ++ toString free ++ " < required " ++
              toString check.minFreeBytes ++ " bytes"), measurements⟩
          else ⟨.pass, none, measurements⟩

end MemoryFloor

/-! ### The checks of the host -/

/-- `HostMemoryAvailable`. -/
structure HostMemoryAvailable where
  minAvailableBytes : ℕ

namespace HostMemoryAvailable

/-- The default. -/
def default : HostMemoryAvailable := ⟨24 * 2 ^ 30⟩

/-- `run`. -/
def run (check : HostMemoryAvailable) (host : Sensors.Host) : CheckOutcome :=
  match host.snapshot.find? (·.name = "host.memory.available_bytes") with
  | none => .skippedWith "MemAvailable unreadable from /proc/meminfo"
  | some m =>
      let avail := ⌊m.value⌋₊
      let measurements := [measurement "host.preflight.memory.available" "By"
        "MemAvailable observed by the host-memory preflight check." avail]
      if avail < check.minAvailableBytes then
        ⟨.fail, some ("MemAvailable " ++ toString avail ++ " < required " ++
          toString check.minAvailableBytes ++ " bytes"), measurements⟩
      else ⟨.pass, none, measurements⟩

end HostMemoryAvailable

/-- `run` of `AlwaysPass`. -/
def AlwaysPass.run : CheckOutcome :=
  ⟨.pass, some "placeholder check; real preflights TBD", []⟩

/-- `default_registry`, on this host. -/
def defaultRegistry (view : HostView) : List PreflightCheck :=
  [⟨"sensor.readable", .singleAccelerator, fun _ => true,
      fun _ accel => (SensorReadable.run accel).status⟩,
    ⟨"drm.render_node_present", .singleAccelerator, fun _ => true,
      fun _ accel => (DrmRenderNodePresent.run view accel).status⟩,
    ⟨"driver.loaded", .singleAccelerator, fun _ => true,
      fun _ accel => (DriverLoaded.run view accel).status⟩,
    ⟨"temperature.below_throttle", .singleAccelerator, fun _ => true,
      fun _ accel => (TemperatureBelowThrottle.default.run view accel).status⟩,
    ⟨"memory.floor", .singleAccelerator, fun _ => true,
      fun _ accel => (MemoryFloor.default.run view accel).status⟩,
    ⟨"host.memory.available", .nodeLocal, fun _ => true,
      fun _ _ => (HostMemoryAvailable.default.run view.toHost).status⟩,
    ⟨"host.disk.free", .nodeLocal, fun _ => true,
      fun _ _ => (HostDiskFree.default.run view.toHost).status⟩,
    ⟨"placeholder.always_pass", .singleAccelerator, fun _ => true,
      fun _ _ => AlwaysPass.run.status⟩]

/-! ### What can be wrong -/

/-- The driver of the device is one that its vendor has. -/
def driverAccepted (view : HostView) (a : Accelerator) : Bool :=
  (view.links (a.deviceDir.join "driver")).any fun target =>
    acceptsDriver a.id.vendor ((fileName target).getD "?")

/-- The reading of the first `temp1_input` that can be read, in thousandths of a degree. -/
def firstTemperature (view : HostView) (a : Accelerator) : Option ℕ :=
  (hwmonDirs view.listing a.deviceDir).findSome? fun hw =>
    readU64 view.files (hw.join "temp1_input")

/-- The card is within ten degrees of its threshold, or beyond it. -/
def isHot (view : HostView) (a : Accelerator) : Bool :=
  (firstTemperature view a).any fun t => 85000 ≤ t

/-- The card has less than a gibibyte free, as far as that can be seen. -/
def isShort (view : HostView) (a : Accelerator) : Bool :=
  a.coverage ≠ .identificationOnly &&
    (readU64 view.files (a.deviceDir.join "mem_info_vram_total")).any fun total =>
      total - (readU64 view.files (a.deviceDir.join "mem_info_vram_used")).getD 0 < 2 ^ 30

/-- The memory that `/proc/meminfo` says is available. -/
def available (view : HostView) : Option ℕ := view.toHost.parseMeminfo["MemAvailable"]?

/-- The host has less than 24 gibibytes of memory available. -/
def memoryShort (view : HostView) : Bool := (available view).any fun v => v < 24 * 2 ^ 30

/-- There are disks, and none of them has 200 gibibytes free. -/
def disksShort (view : HostView) : Bool :=
  view.toHost.disks ≠ [] && view.toHost.disks.all fun d => d.free < 200 * 2 ^ 30

/-- The drivers that a vendor has. -/
def drivers : Vendor → List String
  | .amd => ["amdgpu"]
  | .nvidia => ["nvidia"]
  | .intel => ["i915", "xe"]
  | .other => []

/-- Something is wrong with a card: its sensor has failed, no entry of its directory is a render
node, its link to a driver is not there or leads to none of its vendor's, it is hot, or its
memory is short. -/
inductive CardTrouble (view : HostView) (a : Accelerator) : Prop where
  | unreadable (h : a.coverage = .failed)
  | noRenderNode (h : ∀ entry ∈ view.listing (a.deviceDir.join "drm"),
      ¬ Text.startsWith entry "renderD")
  | driver (h : ∀ dir name, view.links (a.deviceDir.join "driver") = some (dir ++ [name]) →
      name ∉ drivers a.id.vendor)
  | hot (h : isHot view a)
  | short (h : isShort view a)

/-- Something is wrong with the host. -/
inductive HostTrouble (view : HostView) : Prop where
  | memory (h : memoryShort view)
  | disks (h : disksShort view)

/-- A check of the cards, with those it fails on. -/
def listed (accels : List Accelerator) (name : String) (bad : Accelerator → Bool) : List String :=
  (accels.filter bad).map fun a => name ++ "@" ++ toString a.id.drmIndex

/-- What is wrong with a node, as it is listed. -/
def troubles (view : HostView) (accels : List Accelerator) : List String :=
  listed accels "sensor.readable" (·.coverage = .failed) ++
    listed accels "drm.render_node_present" (!hasRenderNode view ·) ++
    listed accels "driver.loaded" (!driverAccepted view ·) ++
    listed accels "temperature.below_throttle" (isHot view ·) ++
    listed accels "memory.floor" (isShort view ·) ++
    (if memoryShort view then ["host.memory.available"] else []) ++
    (if disksShort view then ["host.disk.free"] else [])

lemma listed_eq_nil_iff {accels : List Accelerator} {name : String} {bad : Accelerator → Bool} :
    listed accels name bad = [] ↔ ∀ a ∈ accels, bad a = false := by
  rw [listed, List.map_eq_nil_iff, List.filter_eq_nil_iff]
  exact forall₂_congr fun a _ => Bool.eq_false_iff.symm

lemma hasRenderNode_eq_false_iff {view : HostView} {a : Accelerator} :
    hasRenderNode view a = false ↔ ∀ entry ∈ view.listing (a.deviceDir.join "drm"),
      ¬ Text.startsWith entry "renderD" := by
  rw [hasRenderNode, List.any_eq_false]

lemma acceptsDriver_iff {vendor : Vendor} {name : String} :
    acceptsDriver vendor name ↔ name ∈ drivers vendor := by
  cases vendor <;> simp [acceptsDriver, drivers]

/-- The last part of the link decides about the driver. -/
lemma driverAccepted_eq_false_iff {view : HostView} {a : Accelerator} :
    driverAccepted view a = false ↔ ∀ dir name,
      view.links (a.deviceDir.join "driver") = some (dir ++ [name]) →
        name ∉ drivers a.id.vendor := by
  have hnone : ∀ vendor, "?" ∉ drivers vendor ∧ ".." ∉ drivers vendor := by
    intro vendor
    cases vendor <;> decide
  rw [driverAccepted]
  cases view.links (a.deviceDir.join "driver") with
  | none => simp
  | some target =>
      rw [Option.any_some, Bool.eq_false_iff, ne_eq, acceptsDriver_iff]
      rcases List.eq_nil_or_concat' target with rfl | ⟨dir, name, rfl⟩
      · simpa [fileName] using (hnone _).1
      · have hlast : fileName (dir ++ [name]) = (some name).filter (· ≠ "..") := by
          rw [fileName, List.getLast?_concat]
        have hiff : (fileName (dir ++ [name])).getD "?" ∈ drivers a.id.vendor ↔
            name ∈ drivers a.id.vendor := by
          rw [hlast]
          by_cases hdots : name = ".."
          · rw [Option.filter_some_neg (by simpa using hdots), hdots]
            exact iff_of_false (hnone _).1 (hnone _).2
          · rw [Option.filter_some_pos (by simpa using hdots), Option.getD_some]
        rw [hiff]
        constructor
        · intro hnot dir' name' heq
          obtain ⟨-, hname⟩ := List.append_inj' (Option.some.inj heq) rfl
          exact List.singleton_inj.mp hname ▸ hnot
        · exact fun h => h dir name rfl

/-- A node has no entries when nothing is wrong. -/
lemma troubles_eq_nil_iff {view : HostView} {accels : List Accelerator} :
    troubles view accels = [] ↔
      (∀ a ∈ accels, ¬ CardTrouble view a) ∧ ¬ HostTrouble view := by
  have hcard (a : Accelerator) : ¬ CardTrouble view a ↔
      a.coverage ≠ .failed ∧ hasRenderNode view a ∧ driverAccepted view a ∧
        isHot view a = false ∧ isShort view a = false := by
    refine ⟨fun h => ⟨fun hc => h (.unreadable hc), ?_, ?_, ?_, ?_⟩, ?_⟩
    · exact Bool.not_eq_false _ ▸ fun hc => h (.noRenderNode (hasRenderNode_eq_false_iff.mp hc))
    · exact Bool.not_eq_false _ ▸ fun hc => h (.driver (driverAccepted_eq_false_iff.mp hc))
    · exact Bool.eq_false_iff.mpr fun hc => h (.hot hc)
    · exact Bool.eq_false_iff.mpr fun hc => h (.short hc)
    · rintro ⟨h₁, h₂, h₃, h₄, h₅⟩ h
      cases h with
      | unreadable h => exact h₁ h
      | noRenderNode h => simp [hasRenderNode_eq_false_iff.mpr h] at h₂
      | driver h => simp [driverAccepted_eq_false_iff.mpr h] at h₃
      | hot h => simp [h] at h₄
      | short h => simp [h] at h₅
  have hhost : ¬ HostTrouble view ↔ memoryShort view = false ∧ disksShort view = false := by
    refine ⟨fun h => ⟨Bool.eq_false_iff.mpr fun hc => h (.memory hc),
      Bool.eq_false_iff.mpr fun hc => h (.disks hc)⟩, ?_⟩
    rintro ⟨h₁, h₂⟩ h
    cases h with
    | memory h => simp [h] at h₁
    | disks h => simp [h] at h₂
  simp only [troubles, List.append_eq_nil_iff, listed_eq_nil_iff, hcard, hhost,
    ite_eq_right_iff, List.cons_ne_nil, imp_false, Bool.not_eq_true, decide_eq_false_iff_not,
    Bool.not_eq_eq_eq_not, Bool.not_false, forall_and, and_assoc, ne_eq]

/-! ### What the checks say -/

lemma isFailed_sensorReadable (a : Accelerator) :
    (SensorReadable.run (some a)).status.isFailed = decide (a.coverage = .failed) := by
  rw [SensorReadable.run, accelOrSkip]
  cases a.coverage <;> rfl

lemma isFailed_drmRenderNodePresent (view : HostView) (a : Accelerator) :
    (DrmRenderNodePresent.run view (some a)).status.isFailed = !hasRenderNode view a := by
  rw [DrmRenderNodePresent.run, accelOrSkip]
  cases hasRenderNode view a <;> rfl

lemma isFailed_driverLoaded (view : HostView) (a : Accelerator) :
    (DriverLoaded.run view (some a)).status.isFailed = !driverAccepted view a := by
  rw [DriverLoaded.run, accelOrSkip, driverAccepted]
  cases view.links (a.deviceDir.join "driver") with
  | none => rfl
  | some target =>
      dsimp only [Option.any_some]
      split_ifs with h
      · rw [h]
        rfl
      · rw [Bool.eq_false_iff.mpr h]
        rfl

lemma hwmonTemperatureCelsius_eq (view : HostView) (a : Accelerator) :
    hwmonTemperatureCelsius view a.deviceDir =
      (firstTemperature view a).map fun t : ℕ => (t : ℚ) / 1000 := by
  rw [hwmonTemperatureCelsius, firstTemperature, List.map_findSome?]
  rfl

/-- The two bands of the temperature check are one: from 85 degrees on. -/
lemma isFailed_temperature (view : HostView) (a : Accelerator) :
    (TemperatureBelowThrottle.default.run view (some a)).status.isFailed = isHot view a := by
  rw [TemperatureBelowThrottle.run, accelOrSkip, isHot, hwmonTemperatureCelsius_eq]
  cases firstTemperature view a with
  | none => rfl
  | some t =>
      have hband (d : ℕ) : (d : ℚ) ≤ (t : ℚ) / 1000 ↔ d * 1000 ≤ t := by
        rw [le_div_iff₀ (by norm_num)]
        exact_mod_cast Iff.rfl
      have h85 : ((95 : ℕ) : ℚ) - 10 = (85 : ℕ) := by norm_num
      dsimp only [Option.map_some, Option.any_some]
      split_ifs with h₁ h₂
      · have ht : 95 * 1000 ≤ t := (hband 95).mp h₁
        rw [decide_eq_true (by omega)]
        rfl
      · have ht : 85 * 1000 ≤ t := (hband 85).mp (h85 ▸ h₂)
        rw [decide_eq_true (by omega)]
        rfl
      · have ht : ¬ 85 * 1000 ≤ t := fun hle => h₂ (h85 ▸ (hband 85).mpr hle)
        rw [decide_eq_false (by omega)]
        rfl

lemma isFailed_memoryFloor (view : HostView) (a : Accelerator) :
    (MemoryFloor.default.run view (some a)).status.isFailed = isShort view a := by
  rw [MemoryFloor.run, accelOrSkip, isShort]
  dsimp only
  by_cases hcoverage : a.coverage = .identificationOnly
  · rw [if_pos hcoverage, hcoverage]
    rfl
  · rw [if_neg hcoverage, decide_eq_true hcoverage, Bool.true_and]
    cases readU64 view.files (a.deviceDir.join "mem_info_vram_total") with
    | none => rfl
    | some total =>
        rw [Option.any_some]
        by_cases h : total - (readU64 view.files
          (a.deviceDir.join "mem_info_vram_used")).getD 0 < 2 ^ 30
        · rw [decide_eq_true h]
          exact congrArg (fun o : CheckOutcome => o.status.isFailed) (if_pos h)
        · rw [decide_eq_false h]
          exact congrArg (fun o : CheckOutcome => o.status.isFailed) (if_neg h)

/-- The one measurement of the available memory in a snapshot. -/
lemma find?_available (host : Sensors.Host) :
    host.snapshot.find? (·.name = "host.memory.available_bytes") =
      host.parseMeminfo["MemAvailable"]?.map fun v : ℕ =>
        measurement "host.memory.available_bytes" "By"
          "MemAvailable from /proc/meminfo — what userspace can actually allocate." v := by
  have hnone {l : List Measurement} (h : ∀ m ∈ l, m.name ≠ "host.memory.available_bytes") :
      l.find? (·.name = "host.memory.available_bytes") = none :=
    List.find?_eq_none.mpr fun m hm => by simpa using h m hm
  have htotal : ((host.parseMeminfo["MemTotal"]?.map fun v : ℕ =>
      measurement "host.memory.total_bytes" "By"
        "MemTotal from /proc/meminfo — usable RAM as the kernel sees it." v).toList).find?
          (·.name = "host.memory.available_bytes") = none := by
    refine hnone fun m hm => ?_
    obtain ⟨v, -, rfl⟩ := Option.map_eq_some_iff.mp (Option.mem_toList.mp hm)
    simp [measurement]
  have hdisks : host.diskMetrics.find? (·.name = "host.memory.available_bytes") = none := by
    refine hnone fun m hm => ?_
    obtain ⟨d, -, hm⟩ := List.mem_flatMap.mp hm
    simp only [List.mem_cons, List.not_mem_nil, or_false] at hm
    rcases hm with rfl | rfl <;> simp [Host.Disk.totalBytes, Host.Disk.freeBytes]
  have hpower : host.powerMetrics.find? (·.name = "host.memory.available_bytes") = none := by
    refine hnone fun m hm => ?_
    obtain ⟨entry, -, hentry⟩ := List.mem_flatMap.mp hm
    split at hentry
    · exact absurd hentry List.not_mem_nil
    · split_ifs at hentry
      · exact absurd hentry List.not_mem_nil
      · obtain ⟨file, -, hfile⟩ := List.mem_filterMap.mp hentry
        obtain ⟨uw, -, rfl⟩ := Option.map_eq_some_iff.mp hfile
        simp
  rw [Host.snapshot, List.find?_append, List.find?_append, hdisks, hpower, Option.or_none,
    Option.or_none, Host.memoryMetrics, List.find?_append, List.find?_append, htotal,
    Option.none_or]
  cases host.parseMeminfo["MemAvailable"]? with
  | some v => rfl
  | none =>
      refine hnone fun m hm => ?_
      split at hm
      · simp only [List.mem_cons, List.not_mem_nil, or_false] at hm
        rcases hm with rfl | rfl <;> simp [measurement]
      · exact absurd hm List.not_mem_nil

/-- The status of the check of the memory. -/
lemma status_hostMemoryAvailable (view : HostView) :
    (HostMemoryAvailable.default.run view.toHost).status =
      match available view with
      | none => .skipped
      | some v => if v < 24 * 2 ^ 30 then .fail else .pass := by
  rw [HostMemoryAvailable.run, find?_available, available]
  cases view.toHost.parseMeminfo["MemAvailable"]? with
  | none => rfl
  | some v =>
      dsimp only [Option.map_some, measurement, HostMemoryAvailable.default]
      rw [Nat.floor_natCast]
      exact apply_ite CheckOutcome.status _ _ _

/-- The status of the check of the disks. -/
lemma status_hostDiskFree (view : HostView) :
    (HostDiskFree.default.run view.toHost).status =
      match view.toHost.disks.argmax Host.Disk.free with
      | none => .skipped
      | some d => if d.free < 200 * 2 ^ 30 then .fail else .pass := by
  rw [HostDiskFree.run_eq]
  cases view.toHost.disks.argmax Host.Disk.free with
  | none => rfl
  | some d =>
      dsimp only [Option.map_some, Option.getD_some, HostDiskFree.outcomeOf, HostDiskFree.default]
      exact apply_ite CheckOutcome.status _ _ _

lemma isFailed_hostMemoryAvailable (view : HostView) :
    (HostMemoryAvailable.default.run view.toHost).status.isFailed = memoryShort view := by
  rw [status_hostMemoryAvailable, memoryShort]
  cases available view with
  | none => rfl
  | some v =>
      dsimp only [Option.any_some]
      split_ifs with h
      · rw [decide_eq_true h]
        rfl
      · rw [decide_eq_false h]
        rfl

/-- The largest of the disks is too small exactly when all are. -/
lemma isFailed_hostDiskFree (view : HostView) :
    (HostDiskFree.default.run view.toHost).status.isFailed = disksShort view := by
  rw [status_hostDiskFree, disksShort]
  cases hmax : view.toHost.disks.argmax Host.Disk.free with
  | none =>
      rw [List.argmax_eq_none.mp hmax]
      rfl
  | some d =>
      have hmem : d ∈ view.toHost.disks := List.argmax_mem hmax
      rw [decide_eq_true (List.ne_nil_of_mem hmem), Bool.true_and]
      dsimp only
      split_ifs with h
      · refine (List.all_eq_true.mpr fun d' hd' => decide_eq_true ?_).symm
        exact (List.le_of_mem_argmax hd' hmax).trans_lt h
      · refine (Bool.eq_false_iff.mpr fun hall => h ?_).symm
        exact of_decide_eq_true (List.all_eq_true.mp hall d hmem)

/-! ### The registry -/

/-- The failed runs on the cards, from any run number on. -/
lemma failedEntries_resultsFrom {check : PreflightCheck} (bad : Accelerator → Bool)
    (hbad : ∀ k a, (check.run k (some a)).isFailed = bad a) (k : ℕ) (accels : List Accelerator) :
    failedEntries (check.resultsFrom k accels) = listed accels check.name bad := by
  induction accels generalizing k with
  | nil => rfl
  | cons a accels ih =>
      have hcons : check.resultsFrom k (a :: accels) =
          [(check.name ++ "@" ++ toString a.id.drmIndex, check.run k (some a))] ++
            check.resultsFrom (k + 1) accels := rfl
      rw [hcons, failedEntries_append, ih, listed, listed, failedEntries]
      cases h : bad a <;> simp [hbad, h]

lemma failedEntries_card {check : PreflightCheck} (bad : Accelerator → Bool)
    (hscope : check.scope = .singleAccelerator) (happlies : ∀ a, check.appliesTo a)
    (hbad : ∀ k a, (check.run k (some a)).isFailed = bad a) (accels : List Accelerator) :
    failedEntries (check.results accels) = listed accels check.name bad := by
  rw [PreflightCheck.results, hscope]
  dsimp only
  rw [List.filter_eq_self.mpr fun a _ => happlies a]
  exact failedEntries_resultsFrom bad hbad 0 accels

lemma failedEntries_host {check : PreflightCheck} {bad : Bool} (hscope : check.scope = .nodeLocal)
    (hbad : (check.run 0 none).isFailed = bad) (accels : List Accelerator) :
    failedEntries (check.results accels) = if bad then [check.name] else [] := by
  rw [PreflightCheck.results, hscope, ← hbad]
  cases h : (check.run 0 none).isFailed <;> simp [failedEntries, h]

/-- The results of the registry on a node. -/
def registryResults (view : HostView) (accels : List Accelerator) : List (String × Status) :=
  (defaultRegistry view).flatMap (PreflightCheck.results accels)

/-- The failed results are the troubles. -/
lemma failedEntries_registryResults (view : HostView) (accels : List Accelerator) :
    failedEntries (registryResults view accels) = troubles view accels := by
  have hpass : listed accels "placeholder.always_pass" (fun _ => false) = [] :=
    listed_eq_nil_iff.mpr fun _ _ => rfl
  rw [registryResults, defaultRegistry]
  simp only [List.flatMap_cons, List.flatMap_nil, List.append_nil, failedEntries_append]
  rw [failedEntries_card _ rfl (fun _ => rfl) (fun _ => isFailed_sensorReadable),
    failedEntries_card _ rfl (fun _ => rfl) (fun _ => isFailed_drmRenderNodePresent view),
    failedEntries_card _ rfl (fun _ => rfl) (fun _ => isFailed_driverLoaded view),
    failedEntries_card _ rfl (fun _ => rfl) (fun _ => isFailed_temperature view),
    failedEntries_card _ rfl (fun _ => rfl) (fun _ => isFailed_memoryFloor view),
    failedEntries_host rfl (isFailed_hostMemoryAvailable view),
    failedEntries_host rfl (isFailed_hostDiskFree view),
    failedEntries_card (fun _ => false) rfl (fun _ => rfl) (fun _ _ => rfl)]
  dsimp only
  rw [hpass, List.append_nil, troubles]
  simp only [List.append_assoc]

/-- There is nothing to look at. -/
structure NothingToCheck (view : HostView) (accels : List Accelerator) : Prop where
  accels_eq : accels = []
  available_eq : available view = none
  disks_eq : view.toHost.disks = []

lemma NothingToCheck.not_hostTrouble {view : HostView} {accels : List Accelerator}
    (h : NothingToCheck view accels) : ¬ HostTrouble view := by
  rintro (hm | hd)
  · simp [memoryShort, h.available_eq] at hm
  · simp [disksShort, h.disks_eq] at hd

/-- A check of the registry that passes for a card, or for the host. -/
lemma anyPassed_of_mem {view : HostView} {accels : List Accelerator} {check : PreflightCheck}
    {r : String × Status} (hcheck : check ∈ defaultRegistry view)
    (hr : r ∈ check.results accels) (hpass : r.2 = .pass) :
    AnyPassed (registryResults view accels) :=
  ⟨r, List.mem_flatMap.mpr ⟨check, hcheck, hr⟩, hpass⟩

/-- Some check passes, on a host without troubles, unless there is nothing to check. -/
lemma anyPassed_registryResults {view : HostView} {accels : List Accelerator}
    (h : ¬ HostTrouble view) :
    AnyPassed (registryResults view accels) ↔ ¬ NothingToCheck view accels := by
  constructor
  · rintro ⟨r, hr, hpass⟩ ⟨rfl, havailable, hdisks⟩
    have hmemory := status_hostMemoryAvailable view
    have hdisk := status_hostDiskFree view
    rw [havailable] at hmemory
    rw [hdisks, List.argmax_nil] at hdisk
    simp only [registryResults, defaultRegistry, List.flatMap_cons, List.flatMap_nil,
      PreflightCheck.results, PreflightCheck.resultsFrom, List.filter_nil, List.zipIdx_nil,
      List.map_nil, List.nil_append, List.append_nil, List.mem_append, List.mem_singleton] at hr
    rcases hr with rfl | rfl
    · simp [hmemory] at hpass
    · simp [hdisk] at hpass
  · intro hsomething
    by_cases haccels : accels = []
    · by_cases havailable : available view = none
      · have hdisks : view.toHost.disks ≠ [] := fun hd => hsomething ⟨haccels, havailable, hd⟩
        obtain ⟨d, hd⟩ := Option.ne_none_iff_exists'.mp
          (List.argmax_eq_none (f := Host.Disk.free).not.mpr hdisks)
        have hstatus := status_hostDiskFree view
        have hshort : ¬ d.free < 200 * 2 ^ 30 := fun hlt => h (.disks ?_)
        · rw [hd] at hstatus
          dsimp only at hstatus
          rw [if_neg hshort] at hstatus
          exact anyPassed_of_mem (List.mem_of_getElem? (i := 6) rfl)
            (List.mem_singleton_self _) hstatus
        · rw [disksShort, decide_eq_true hdisks, Bool.true_and]
          exact List.all_eq_true.mpr fun d' hd' =>
            decide_eq_true ((List.le_of_mem_argmax hd' hd).trans_lt hlt)
      · obtain ⟨v, hv⟩ := Option.ne_none_iff_exists'.mp havailable
        have hstatus := status_hostMemoryAvailable view
        have hshort : ¬ v < 24 * 2 ^ 30 := fun hlt => h (.memory (by
          rw [memoryShort, hv]
          exact decide_eq_true hlt))
        rw [hv] at hstatus
        dsimp only at hstatus
        rw [if_neg hshort] at hstatus
        exact anyPassed_of_mem (List.mem_of_getElem? (i := 5) rfl)
          (List.mem_singleton_self _) hstatus
    · obtain ⟨a, accels', rfl⟩ := List.exists_cons_of_ne_nil haccels
      exact anyPassed_of_mem (List.mem_of_getElem? (i := 7) rfl) List.mem_cons_self rfl

/-! ### The readiness of a node -/

/-- What the registry publishes on a node. -/
structure Readiness (view : HostView) (accels : List Accelerator) (set : LabelSet) : Prop where
  degraded_iff : set.labels["accel-ready.lunnova.dev/inference"]? = some "degraded" ↔
    (∃ a ∈ accels, CardTrouble view a) ∨ HostTrouble view
  unknown_iff : set.labels["accel-ready.lunnova.dev/inference"]? = some "unknown" ↔
    NothingToCheck view accels
  ready_iff : set.labels["accel-ready.lunnova.dev/inference"]? = some "true" ↔
    (∀ a ∈ accels, ¬ CardTrouble view a) ∧ ¬ HostTrouble view ∧ ¬ NothingToCheck view accels
  training_eq : set.labels["accel-ready.lunnova.dev/training"]? =
    set.labels["accel-ready.lunnova.dev/inference"]?
  failed_eq : set.annotations["accel-ready.lunnova.dev/failed"]? =
    if troubles view accels = [] then none else some (",".intercalate (troubles view accels))

lemma anyFailed_registryResults {view : HostView} {accels : List Accelerator} :
    AnyFailed (registryResults view accels) ↔
      (∃ a ∈ accels, CardTrouble view a) ∨ HostTrouble view := by
  rw [← not_iff_not, ← failedEntries_eq_nil_iff, failedEntries_registryResults,
    troubles_eq_nil_iff, not_or]
  simp only [not_exists, not_and]

/-- The readiness, in terms of the results. -/
lemma labelValue_aggregate (results : List (String × Status)) :
    ((aggregate (results.map Prod.snd)).labelValue = "degraded" ↔ AnyFailed results) ∧
    ((aggregate (results.map Prod.snd)).labelValue = "true" ↔
      ¬ AnyFailed results ∧ AnyPassed results) ∧
    ((aggregate (results.map Prod.snd)).labelValue = "unknown" ↔
      ¬ AnyFailed results ∧ ¬ AnyPassed results) := by
  by_cases hf : AnyFailed results
  · rw [aggregate_of_anyFailed hf]
    simp [NodeReadiness.labelValue, hf]
  · by_cases hp : AnyPassed results
    · rw [aggregate_of_anyPassed hf hp]
      simp [NodeReadiness.labelValue, hf, hp]
    · rw [aggregate_of_not_anyPassed hf hp]
      simp [NodeReadiness.labelValue, hf, hp]

/-- **The readiness of a node is what its files say.** For every content of the files, the
directories, the links and the disks of a host and every list of accelerators, a cycle with
the default checks calls the node degraded exactly when something is wrong with a card or
with the host, unknown when there was nothing to look at, ready otherwise, and never not
ready; and it lists everything that is wrong, in the order of the checks. -/
theorem readiness_defaultRegistry (view : HostView) (sysfs : Sysfs) (topology : NodeTopology)
    (accels inventory : List Accelerator) (now : ℕ) :
    Readiness view accels
      (runCycle (defaultRegistry view) accels (build sysfs topology inventory) now) := by
  obtain ⟨hdegraded, hready, hunknown⟩ := labelValue_aggregate (registryResults view accels)
  rw [anyFailed_registryResults] at hdegraded hready hunknown
  rw [runCycle_eq_publishReadiness]
  refine ⟨?_, ?_, ?_, ?_, ?_⟩
  · rw [getElem?_inference, Option.some.injEq]
    exact hdegraded
  · rw [getElem?_inference, Option.some.injEq]
    refine hunknown.trans ⟨fun ⟨hnone, hpass⟩ => ?_, fun h => ⟨?_, ?_⟩⟩
    · exact of_not_not fun hn => hpass
        ((anyPassed_registryResults (not_or.mp hnone).2).mpr hn)
    · rintro (⟨a, ha, -⟩ | hhost)
      · simp [h.accels_eq] at ha
      · exact h.not_hostTrouble hhost
    · exact fun hpass => (anyPassed_registryResults h.not_hostTrouble).mp hpass h
  · rw [getElem?_inference, Option.some.injEq]
    refine hready.trans ⟨fun ⟨hnone, hpass⟩ => ?_, fun ⟨hcards, hhost, hsomething⟩ => ⟨?_, ?_⟩⟩
    · obtain ⟨hcards, hhost⟩ := not_or.mp hnone
      simp only [not_exists, not_and] at hcards
      exact ⟨hcards, hhost, (anyPassed_registryResults hhost).mp hpass⟩
    · rintro (⟨a, ha, htrouble⟩ | htrouble)
      · exact hcards a ha htrouble
      · exact hhost htrouble
    · exact (anyPassed_registryResults hhost).mpr hsomething
  · rw [getElem?_training, getElem?_inference]
  · rw [getElem?_failed _ _ _ (getElem?_build_failed _ _ _)]
    exact failedEntries_registryResults view accels ▸ rfl

end Accelrd.Telemetry
