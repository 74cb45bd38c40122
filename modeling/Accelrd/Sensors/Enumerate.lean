import Mathlib.Tactic
import Accelrd.Library.Sorting
import Accelrd.Library.Words
import Accelrd.Sensors.Bars
import Accelrd.Sensors.Host
import Accelrd.Sensors.Partitions

/-!
Which accelerators a host has: `drm_cards` and `enumerate_for_vendor` of
`src/sensors/common.rs`, the three backends of `src/sensors/`, and `enumerate_all` of
`src/sensors/mod.rs`.

* `enumerateAll`: the code.
* `DrmCard`, `Lists`: the directory of the DRM cards, as the kernel keeps it. It is listed in
  any order, with the connectors of the cards between them.
* `enumerated_enumerateAll`: every card of a known vendor is enumerated once, by the backend
  of its vendor.
-/

namespace Accelrd.Sensors

open Std

/-! ### The code -/

/-- A host, with where its symbolic links lead, and what its paths are resolved to. -/
structure HostView extends Host where
  links : Path → Option Path
  real : Path → Option Path

/-- The directory that lists the cards. -/
def drmRoot : Path := ["sys", "class", "drm"]

/-- The index in the name of a card. -/
def cardIndex (name : String) : Option ℕ :=
  (Text.stripPrefix name "card").bind fun rest => Text.parseUnsigned 32 rest.toList

/-- The card that an entry of the directory stands for. -/
def drmCard (view : HostView) (name : String) : Option (ℕ × Path) := do
  let idx ← cardIndex name
  let real ← view.real ((drmRoot.join name).join "device")
  some (idx, real)

/-- `drm_cards`. -/
def drmCards (view : HostView) : List (ℕ × Path) :=
  ((view.listing drmRoot).filterMap (drmCard view)).insertionSort fun a b => a.1 ≤ b.1

/-- `enumerate_for_vendor`. -/
def enumerateForVendor (view : HostView) (vendor : Vendor) (build : ℕ → Path → Accelerator) :
    List Accelerator :=
  ((drmCards view).filter fun c => cardVendor view.files c.2 = vendor).map fun c => build c.1 c.2

/-- `hwmon_temperature_celsius`. -/
def hwmonTemperatureCelsius (view : HostView) (deviceDir : Path) : Option ℚ :=
  (hwmonDirs view.listing deviceDir).findSome? fun hw =>
    (readU64 view.files (hw.join "temp1_input")).map fun t : ℕ => (t : ℚ) / 1000

/-- `AcceleratorSensor`. -/
structure AcceleratorSensor where
  vendor : Vendor
  enumerate : HostView → Except String (List Accelerator)
  snapshot : HostView → Accelerator → Except String (List Measurement)

namespace Amd

/-- `classify_memory`. -/
def classifyMemory (sysfs : Sysfs) (deviceDir : Path) : MemoryKind × Option ℕ :=
  let vramTotal := (readU64 sysfs (deviceDir.join "mem_info_vram_total")).getD 0
  if vramTotal > 0 then (.dedicated, some vramTotal) else (.unknown, none)

/-- `amd_model_name`. -/
def amdModelName (sysfs : Sysfs) (deviceId : ℕ) (deviceDir : Path) : String :=
  ((readStringFirstLine sysfs (deviceDir.join "product_name")).filter (· ≠ "")).getD
    ("AMD device " ++ formatHex deviceId)

/-- `build_accelerator` of the backend for AMD cards. -/
def buildAccelerator (sysfs : Sysfs) (drmIndex : ℕ) (deviceDir : Path) : Accelerator :=
  let deviceId := (readHexU16 sysfs (deviceDir.join "device")).getD 0
  let pciAddr := (pciAddrFromDeviceDir deviceDir).getD ""
  let memory := classifyMemory sysfs deviceDir
  { id := ⟨.amd, drmIndex, pciAddr⟩
    model := amdModelName sysfs deviceId deviceDir
    memoryKind := memory.1
    memoryTotalBytes := memory.2
    numaNode := readI32 sysfs (deviceDir.join "numa_node")
    coverage := .full
    fabricDomain := none
    partitioned := false
    deviceDir := deviceDir }

/-- `AmdSysfsSensor`. -/
def amdSysfsSensor : AcceleratorSensor where
  vendor := .amd
  enumerate view := .ok (enumerateForVendor view .amd (buildAccelerator view.files))
  snapshot view accel := .ok (Sensors.snapshot view.files view.listing accel)

end Amd

namespace Nvidia

/-- `parse_nvidia_info_field`. -/
def parseNvidiaInfoField (text key : String) : Option String :=
  (Text.lines text.toList).findSome? fun line =>
    (Text.splitOnce ':' line).bind fun kv =>
      if String.ofList (Text.trim kv.1) = key then some (String.ofList (Text.trim kv.2)) else none

/-- The model of a card that the driver lists. -/
def procModel (view : HostView) (gpus : Path) (entry : String) : Option (String × String) := do
  let text ← view.files ((gpus.join entry).join "information")
  let model ← parseNvidiaInfoField text "Model"
  some (String.ofList (entry.toList.map Char.toLower), model)

/-- `read_proc_nvidia_models`. -/
def readProcNvidiaModels (view : HostView) : ExtTreeMap String String :=
  let gpus : Path := ["proc", "driver", "nvidia", "gpus"]
  ExtTreeMap.ofList ((view.listing gpus).filterMap (procModel view gpus))

/-- `snapshot` of `NvidiaSysfsSensor`. -/
def snapshot (view : HostView) (accel : Accelerator) : List Measurement :=
  (accel.memoryTotalBytes.map fun total : ℕ => measurement "accel.memory.total" "By"
    ("Accelerator memory total (from PCI BAR1; sysfs-only path, no live used reading " ++
      "without NVML).") total).toList ++
  ((hwmonTemperatureCelsius view accel.deviceDir).map fun t => measurement "accel.temperature"
    "Cel" "Edge temperature from open-driver hwmon." t).toList ++
  [sensorHealth view.files accel.deviceDir .nvidia]

/-- `NvidiaSysfsSensor`. -/
def nvidiaSysfsSensor : AcceleratorSensor where
  vendor := .nvidia
  enumerate view :=
    .ok (enumerateForVendor view .nvidia
      (buildAccelerator view.files fun addr => (readProcNvidiaModels view)[addr]?))
  snapshot view accel := .ok (snapshot view accel)

end Nvidia

namespace Intel

/-- The measurements of a directory of `hwmon`. -/
def hwmonMeasurements (sysfs : Sysfs) (hw : Path) : List Measurement :=
  gauge sysfs (hw.join "temp1_input") (fun t => measurement "accel.temperature" "Cel"
    "GPU temperature from i915/Xe hwmon." (t / 1000)) ++
  gauge sysfs (hw.join "power1_input") fun p => measurement "accel.power.usage" "W"
    "Package power from i915/Xe hwmon (µW)." (p / 1000000)

/-- `snapshot` of `IntelSysfsSensor`. -/
def snapshot (view : HostView) (accel : Accelerator) : List Measurement :=
  (accel.memoryTotalBytes.map fun total : ℕ => measurement "accel.memory.total" "By"
    ("Accelerator memory total (from PCI BAR2 on Intel discrete; iGPUs share host RAM and " ++
      "have no card-local total).") total).toList ++
  (hwmonDirs view.listing accel.deviceDir).flatMap (hwmonMeasurements view.files) ++
  [sensorHealth view.files accel.deviceDir .intel]

/-- `IntelSysfsSensor`. -/
def intelSysfsSensor : AcceleratorSensor where
  vendor := .intel
  enumerate view := .ok (enumerateForVendor view .intel (buildAccelerator view.files))
  snapshot view accel := .ok (snapshot view accel)

end Intel

/-- The backends of `enumerate_all`. -/
def backends : List AcceleratorSensor :=
  [Amd.amdSysfsSensor, Nvidia.nvidiaSysfsSensor, Intel.intelSysfsSensor]

/-- The accelerators that `enumerate_all` returns. -/
def enumerateAll (view : HostView) : List Accelerator :=
  markPartitions view.files (backends.flatMap fun backend =>
    match backend.enumerate view with
    | .ok accels => accels
    | .error _ => [])

/-! ### The directory of the cards -/

/-- A card, with the directory of its device if it has one. -/
structure DrmCard where
  index : ℕ
  device : Option Path
  index_lt : index < 2 ^ 32

/-- The name of a card. -/
def DrmCard.name (c : DrmCard) : String := "card" ++ toString c.index

/-- The kernel lists these cards, with these other entries between them. -/
structure Lists (view : HostView) (cards : List DrmCard) (others : List String) : Prop where
  entries : (view.listing drmRoot).Perm (cards.map DrmCard.name ++ others)
  ordered : cards.Pairwise fun c d => c.index < d.index
  device : ∀ c ∈ cards, view.real ((drmRoot.join c.name).join "device") = c.device
  others : ∀ name ∈ others, ¬Text.startsWith name "card" ∨
    ∃ (n : ℕ) (connector : String), name = "card" ++ (toString n ++ ("-" ++ connector))

/-- The devices of the cards that have one. -/
def devices (cards : List DrmCard) : List (ℕ × Path) :=
  cards.filterMap fun c => c.device.map fun dir => (c.index, dir)

lemma cardIndex_card (rest : String) :
    cardIndex ("card" ++ rest) = Text.parseUnsigned 32 rest.toList := by
  rw [cardIndex, Text.stripPrefix_eq_some_iff.mpr rfl, Option.bind_some]

lemma cardIndex_name (c : DrmCard) : cardIndex c.name = some c.index := by
  rw [DrmCard.name, cardIndex_card, Text.parseUnsigned_toString c.index_lt]

/-- A connector is not taken for its card, nor is what is no card. -/
lemma cardIndex_eq_none {name : String} (h : ¬Text.startsWith name "card" ∨
    ∃ (n : ℕ) (connector : String), name = "card" ++ (toString n ++ ("-" ++ connector))) :
    cardIndex name = none := by
  rcases h with hcard | ⟨n, connector, rfl⟩
  · rw [cardIndex, Option.bind_eq_none_iff]
    intro rest hrest
    rw [Text.stripPrefix_eq_some_iff.mp hrest] at hcard
    exact absurd (Text.startsWith_append "card" rest) hcard
  · rw [cardIndex_card]
    refine Text.parseUnsigned_eq_none (c := '-') ?_ (by decide) (by decide)
    rw [String.toList_append, String.toList_append]
    exact List.mem_append_right _ (List.mem_append_left _ (by decide))

variable {view : HostView} {cards : List DrmCard} {others : List String}

/-- **The cards are found**, in the order of their indices. -/
lemma drmCards_eq (h : Lists view cards others) : drmCards view = devices cards := by
  have hcards : (cards.map DrmCard.name).filterMap (drmCard view) = devices cards := by
    rw [List.filterMap_map, devices]
    refine List.filterMap_congr fun c hc => ?_
    rw [Function.comp_apply, drmCard, cardIndex_name, h.device c hc]
    cases c.device with
    | none => rfl
    | some dir => rfl
  have hothers : others.filterMap (drmCard view) = [] := by
    refine List.filterMap_eq_nil_iff.mpr fun name hname => ?_
    rw [drmCard, cardIndex_eq_none (h.others name hname)]
    rfl
  have hsorted : (devices cards).Pairwise fun c d => c.1 < d.1 := by
    rw [devices, List.pairwise_filterMap]
    refine h.ordered.imp ?_
    rintro c d hlt p hp q hq
    obtain ⟨dir, -, rfl⟩ := Option.map_eq_some_iff.mp hp
    obtain ⟨dir', -, rfl⟩ := Option.map_eq_some_iff.mp hq
    exact hlt
  refine Sorting.insertionSort_eq_of_perm Prod.fst ?_ hsorted
  have hperm := h.entries.filterMap (drmCard view)
  rwa [List.filterMap_append, hcards, hothers, List.append_nil] at hperm

/-! ### Who enumerates a card -/

/-- Where an accelerator comes from: the vendor and the index in its id, and its device. -/
def origin (a : Accelerator) : Vendor × ℕ × Path := (a.id.vendor, a.id.drmIndex, a.deviceDir)

/-- The devices of a vendor. -/
def ofVendor (view : HostView) (cards : List DrmCard) (v : Vendor) : List (ℕ × Path) :=
  (devices cards).filter fun c => cardVendor view.files c.2 = v

/-- The cards of a host are enumerated: those of each vendor in the order of their indices,
with different ids, and each once if its vendor is known. -/
structure Enumerated (view : HostView) (cards : List DrmCard) (accels : List Accelerator) :
    Prop where
  origins : accels.map origin = [Vendor.amd, .nvidia, .intel].flatMap fun v =>
    (ofVendor view cards v).map fun c => (v, c)
  ids : (accels.map (·.id)).Nodup
  once : ∀ c ∈ devices cards, accels.countP (fun a => a.id.drmIndex = c.1 ∧ a.deviceDir = c.2) =
    if cardVendor view.files c.2 = .other then 0 else 1

lemma map_origin_enumerateForVendor (h : Lists view cards others) {v : Vendor}
    {build : ℕ → Path → Accelerator} (hbuild : ∀ idx dir, origin (build idx dir) = (v, idx, dir)) :
    (enumerateForVendor view v build).map origin = (ofVendor view cards v).map fun c => (v, c) := by
  rw [enumerateForVendor, drmCards_eq h, List.map_map, ofVendor]
  exact List.map_congr_left fun c _ => hbuild c.1 c.2

lemma map_origin_enumerateAll (h : Lists view cards others) :
    (enumerateAll view).map origin = [Vendor.amd, .nvidia, .intel].flatMap fun v =>
      (ofVendor view cards v).map fun c => (v, c) := by
  rw [enumerateAll, map_markPartitions origin fun _ _ => rfl]
  simp only [backends, List.flatMap_cons, List.flatMap_nil, List.append_nil, List.map_append]
  refine congrArg₂ (· ++ ·) ?_ (congrArg₂ (· ++ ·) ?_ ?_)
  · exact map_origin_enumerateForVendor h fun _ _ => rfl
  · exact map_origin_enumerateForVendor h fun _ _ => rfl
  · exact map_origin_enumerateForVendor h fun _ _ => rfl

lemma nodup_index_devices (h : Lists view cards others) :
    ((devices cards).map Prod.fst).Nodup := by
  have hindices : (cards.map DrmCard.index).Nodup :=
    List.pairwise_map.mpr (h.ordered.imp fun hlt => hlt.ne)
  refine hindices.sublist ?_
  clear h hindices
  rw [devices]
  induction cards with
  | nil => exact List.Sublist.refl _
  | cons c cards ih =>
      cases hdevice : c.device with
      | none => simpa [hdevice] using ih.cons c.index
      | some dir => simpa [hdevice] using ih.cons_cons c.index

/-- A device is among those of its vendor, and nowhere else. -/
lemma count_ofVendor (h : Lists view cards others) {c : ℕ × Path} (hc : c ∈ devices cards)
    (v : Vendor) :
    (ofVendor view cards v).count c = if cardVendor view.files c.2 = v then 1 else 0 := by
  rw [ofVendor]
  split_ifs with hv
  · rw [List.count_filter (by simpa using hv)]
    exact List.count_eq_one_of_mem (nodup_index_devices h).of_map hc
  · refine List.count_eq_zero_of_not_mem fun hmem => hv ?_
    simpa using (List.mem_filter.mp hmem).2

/-- No sensor gives a card a fabric domain. -/
lemma fabricDomain_enumerateAll (view : HostView) :
    ∀ a ∈ enumerateAll view, a.fabricDomain = none := by
  have hvendor (v : Vendor) {build : ℕ → Path → Accelerator}
      (hbuild : ∀ idx dir, (build idx dir).fabricDomain = none) :
      ∀ d ∈ (enumerateForVendor view v build).map (·.fabricDomain), d = none := by
    rw [enumerateForVendor, List.map_map]
    exact List.forall_mem_map.mpr fun c _ => hbuild c.1 c.2
  rw [← List.forall_mem_map (P := (· = none)), enumerateAll,
    map_markPartitions Accelerator.fabricDomain fun _ _ => rfl]
  simp only [backends, List.flatMap_cons, List.flatMap_nil, List.append_nil, List.map_append,
    List.forall_mem_append]
  exact ⟨hvendor _ fun _ _ => rfl, hvendor _ fun _ _ => rfl, hvendor _ fun _ _ => rfl⟩

/-- No two accelerators have one id. -/
lemma nodup_id_enumerateAll (h : Lists view cards others) :
    ((enumerateAll view).map (·.id)).Nodup := by
  have hkeys : ((enumerateAll view).map fun a => (a.id.vendor, a.id.drmIndex)).Nodup := by
    have hkey : (fun a : Accelerator => (a.id.vendor, a.id.drmIndex)) =
        (fun o : Vendor × ℕ × Path => (o.1, o.2.1)) ∘ origin := rfl
    rw [hkey, ← List.map_map, map_origin_enumerateAll h, List.map_flatMap]
    simp only [List.map_map, Function.comp_def]
    refine List.nodup_flatMap.mpr ⟨fun v _ => ?_, ?_⟩
    · have hsub : ((ofVendor view cards v).map Prod.fst).Nodup :=
        (nodup_index_devices h).sublist (List.filter_sublist.map _)
      have hpair : ((ofVendor view cards v).map fun c => (v, c.1)) =
          ((ofVendor view cards v).map Prod.fst).map (Prod.mk v) := by rw [List.map_map]; rfl
      rw [hpair]
      exact hsub.map fun i j heq => congrArg Prod.snd heq
    · refine List.Pairwise.imp ?_ (by decide : [Vendor.amd, .nvidia, .intel].Pairwise (· ≠ ·))
      intro v w hne o hv hw
      obtain ⟨c, -, rfl⟩ := List.mem_map.mp hv
      obtain ⟨d, -, heq⟩ := List.mem_map.mp hw
      exact hne (congrArg Prod.fst heq).symm
  refine List.Nodup.of_map (fun id => (id.vendor, id.drmIndex)) ?_
  rwa [List.map_map]

/-- **Every card is enumerated by the backend of its vendor**, in whatever order the directory
is listed: those of AMD first, then those of NVIDIA, then those of Intel, each in the order of
the indices. No two have one id; a card of another vendor is not enumerated, and a connector
is never taken for a card. -/
theorem enumerated_enumerateAll (h : Lists view cards others) :
    Enumerated view cards (enumerateAll view) where
  origins := map_origin_enumerateAll h
  ids := nodup_id_enumerateAll h
  once := by
    intro c hc
    have hcount : (enumerateAll view).countP (fun a => a.id.drmIndex = c.1 ∧ a.deviceDir = c.2) =
        ((enumerateAll view).map origin).countP fun o => o.2 = c := by
      rw [List.countP_map]
      exact congrArg (List.countP · _) (funext fun a =>
        decide_eq_decide.mpr (Prod.ext_iff (x := (origin a).2)).symm)
    have hvendor (v : Vendor) : ((ofVendor view cards v).map fun d => (v, d)).countP
        (fun o => o.2 = c) = if cardVendor view.files c.2 = v then 1 else 0 := by
      rw [List.countP_map, ← count_ofVendor h hc v, List.count]
      exact congrArg (List.countP · _) (funext fun d => (beq_eq_decide d c).symm)
    rw [hcount, map_origin_enumerateAll h]
    simp only [List.flatMap_cons, List.flatMap_nil, List.append_nil, List.countP_append, hvendor]
    cases cardVendor view.files c.2 <;> rfl

/-- A host with a card of AMD, and the card of a virtual machine. -/
def mixedCards : List DrmCard :=
  [⟨0, some ["sys", "devices", "0000:03:00.0"], by decide⟩,
    ⟨1, some ["sys", "devices", "0000:00:02.0"], by decide⟩]

/-- Its files and its directories. -/
def mixedView : HostView where
  files path := if path = ["sys", "devices", "0000:03:00.0", "vendor"] then some "0x1002\n"
    else if path = ["sys", "devices", "0000:00:02.0", "vendor"] then some "0x1234\n" else none
  listing path := if path = drmRoot then ["card1", "version", "card0-DP-1", "card0"] else []
  statvfs _ := none
  links _ := none
  real path := if path = ["sys", "class", "drm", "card0", "device"] then
      some ["sys", "devices", "0000:03:00.0"]
    else if path = ["sys", "class", "drm", "card1", "device"] then
      some ["sys", "devices", "0000:00:02.0"]
    else none

lemma lists_mixed : Lists mixedView mixedCards ["version", "card0-DP-1"] where
  entries := by decide +kernel
  ordered := by decide
  device := by decide +kernel
  others := by
    refine List.forall_mem_cons.mpr ⟨Or.inl (by decide), List.forall_mem_singleton.mpr ?_⟩
    exact Or.inr ⟨0, "DP-1", by decide⟩

/-- Only the first of them is enumerated. -/
theorem enumerated_enumerateAll_mixed : Enumerated mixedView mixedCards (enumerateAll mixedView) :=
  enumerated_enumerateAll lists_mixed

end Accelrd.Sensors
