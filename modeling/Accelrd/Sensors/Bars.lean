import Mathlib.Tactic
import Accelrd.Sensors.Amd

/-!
`read_pci_bars` of `src/sensors/common.rs`, and what `build_accelerator` of
`src/sensors/nvidia.rs` and of `src/sensors/intel.rs` make of it: the memory of a card, from
the size of one of its BARs.

* `readPciBars`: the code. Its arithmetic wraps as in a release build.
* `mappedSize`: the size that a line of the file speaks of.
* `toNat_barSize`: a BAR that does not end before it starts has the size that its line
  speaks of.
* `barsSafe_iff`: when that holds of a whole file.
-/

namespace Accelrd.Sensors

/-! ### The code -/

/-- `u64::from_str_radix` with radix 16. -/
def parseHexU64 (cs : List Char) : Option ℕ :=
  let digits := match cs with
    | '+' :: r => r
    | r => r
  match digits.mapM hexDigit with
  | some ds =>
      if ds ≠ [] ∧ Nat.ofDigits 16 ds.reverse < 2 ^ 64 then some (Nat.ofDigits 16 ds.reverse)
      else none
  | none => none

/-- `parse_hex`. -/
def parseHex (cs : List Char) : UInt64 := UInt64.ofNat ((parseHexU64 (trimHexMarks cs)).getD 0)

/-- `if start == 0 { 0 } else { end - start + 1 }`. -/
def barSize (start stop : UInt64) : UInt64 := if start = 0 then 0 else stop - start + 1

/-- The entry of a line. -/
def pciBar (line : List Char) : UInt64 :=
  let parts := (Text.words Text.isAsciiWhitespace line).map parseHex
  barSize (parts[0]?.getD 0) (parts[1]?.getD 0)

/-- The lines of the file `resource` of a device. -/
def resourceLines (sysfs : Sysfs) (deviceDir : Path) : List (List Char) :=
  (sysfs (deviceDir.join "resource")).elim [] fun s => Text.lines s.toList

/-- `read_pci_bars`. -/
def readPciBars (sysfs : Sysfs) (deviceDir : Path) : List UInt64 :=
  (resourceLines sysfs deviceDir).map pciBar

/-- `pci_addr_from_device_dir`. -/
def pciAddrFromDeviceDir (deviceDir : Path) : Option String :=
  deviceDir.getLast?.filter fun name => ':' ∈ name.toList

/-- `str::parse` for the type `i32`. -/
def parseI32 (cs : List Char) : Option ℤ :=
  let value := match cs with
    | '-' :: '+' :: _ => none
    | '-' :: r => (Text.parseUnsigned 32 r).map fun n : ℕ => -(n : ℤ)
    | r => (Text.parseUnsigned 32 r).map fun n : ℕ => (n : ℤ)
  value.filter fun z => -2 ^ 31 ≤ z ∧ z < 2 ^ 31

/-- `read_i32`. -/
def readI32 (sysfs : Sysfs) (path : Path) : Option ℤ :=
  (sysfs path).bind fun s => parseI32 (Text.trim s.toList)

/-- A number as `{:#06x}` writes it. -/
def formatHex (n : ℕ) : String := "0x" ++ String.ofList ((Nat.toDigits 16 n).leftpad 4 '0')

/-! ### The backends -/

namespace Nvidia

/-- `build_accelerator` of the backend for NVIDIA cards, with the models that the driver
lists under PCI addresses in lower case. -/
def buildAccelerator (sysfs : Sysfs) (procModels : String → Option String) (drmIndex : ℕ)
    (deviceDir : Path) : Accelerator :=
  let deviceId := (readHexU16 sysfs (deviceDir.join "device")).getD 0
  let pciAddr := (pciAddrFromDeviceDir deviceDir).getD ""
  let bar1 := (readPciBars sysfs deviceDir)[1]?.getD 0
  let memoryTotalBytes := if bar1 > 4 * 1024 * 1024 then some bar1.toNat else none
  { id := ⟨.nvidia, drmIndex, pciAddr⟩
    model := (procModels (String.ofList (pciAddr.toList.map Char.toLower))).getD
      ("Nvidia device " ++ formatHex deviceId)
    memoryKind := if memoryTotalBytes.isSome then .dedicated else .unknown
    memoryTotalBytes := memoryTotalBytes
    numaNode := readI32 sysfs (deviceDir.join "numa_node")
    coverage := .identificationOnly
    fabricDomain := none
    partitioned := false
    deviceDir := deviceDir }

/-- The memory of a card is no more than the size of its second BAR. -/
lemma memoryTotalBytes_le (sysfs : Sysfs) (procModels : String → Option String) (drmIndex : ℕ)
    (deviceDir : Path) :
    (buildAccelerator sysfs procModels drmIndex deviceDir).memoryTotalBytes.getD 0 ≤
      ((readPciBars sysfs deviceDir)[1]?.getD 0).toNat := by
  change (if (readPciBars sysfs deviceDir)[1]?.getD 0 > 4 * 1024 * 1024 then
    some ((readPciBars sysfs deviceDir)[1]?.getD 0).toNat else none).getD 0 ≤ _
  split_ifs
  · exact le_refl _
  · exact Nat.zero_le _

end Nvidia

namespace Intel

/-- `ARC_DISCRETE_VRAM_FLOOR`. -/
def arcDiscreteVramFloor : UInt64 := 1024 * 1024 * 1024

/-- `build_accelerator` of the backend for Intel cards. -/
def buildAccelerator (sysfs : Sysfs) (drmIndex : ℕ) (deviceDir : Path) : Accelerator :=
  let deviceId := (readHexU16 sysfs (deviceDir.join "device")).getD 0
  let pciAddr := (pciAddrFromDeviceDir deviceDir).getD ""
  let bar2 := (readPciBars sysfs deviceDir)[2]?.getD 0
  { id := ⟨.intel, drmIndex, pciAddr⟩
    model := "Intel device " ++ formatHex deviceId
    memoryKind := if bar2 > arcDiscreteVramFloor then .dedicated else .unified
    memoryTotalBytes := if bar2 > arcDiscreteVramFloor then some bar2.toNat else none
    numaNode := readI32 sysfs (deviceDir.join "numa_node")
    coverage := .full
    fabricDomain := none
    partitioned := false
    deviceDir := deviceDir }

/-- The memory of a card is no more than the size of its third BAR. -/
lemma memoryTotalBytes_le (sysfs : Sysfs) (drmIndex : ℕ) (deviceDir : Path) :
    (buildAccelerator sysfs drmIndex deviceDir).memoryTotalBytes.getD 0 ≤
      ((readPciBars sysfs deviceDir)[2]?.getD 0).toNat := by
  change (if (readPciBars sysfs deviceDir)[2]?.getD 0 > arcDiscreteVramFloor then
    some ((readPciBars sysfs deviceDir)[2]?.getD 0).toNat else none).getD 0 ≤ _
  split_ifs
  · exact le_refl _
  · exact Nat.zero_le _

end Intel

/-! ### The mapped range -/

/-- A field of a line, if it is there and can be read. -/
def field (line : List Char) (i : ℕ) : Option ℕ :=
  (Text.words Text.isAsciiWhitespace line)[i]?.bind fun w => parseHexU64 (trimHexMarks w)

/-- The size of the range that a line maps. -/
def mappedSize (line : List Char) : ℕ :=
  match field line 0, field line 1 with
  | some start, some stop => if 0 < start ∧ start ≤ stop then stop - start + 1 else 0
  | _, _ => 0

/-- The operations of a BAR that is mapped have their exact results. -/
def NoWrap (start stop : UInt64) : Prop :=
  start ≠ 0 → ((stop - start).toNat : ℤ) = stop.toNat - start.toNat ∧
    (stop - start + 1).toNat = (stop - start).toNat + 1

lemma parseHexU64_lt {cs : List Char} {n : ℕ} (h : parseHexU64 cs = some n) : n < 2 ^ 64 := by
  unfold parseHexU64 at h
  extract_lets digits at h
  cases hdigits : digits.mapM hexDigit with
  | none =>
      rw [hdigits] at h
      exact absurd h (by simp)
  | some ds =>
      rw [hdigits] at h
      dsimp only at h
      split_ifs at h with hfits
      obtain rfl := Option.some.inj h
      exact hfits.2

/-- A BAR that does not end before it starts has its exact size. -/
lemma noWrap_iff {start stop : UInt64} : NoWrap start stop ↔ start = 0 ∨ start ≤ stop := by
  constructor
  · intro h
    by_cases hzero : start = 0
    · exact Or.inl hzero
    · have hsub := (h hzero).1
      refine Or.inr (UInt64.le_iff_toNat_le.mpr ?_)
      omega
  · rintro (hzero | hle) hne
    · exact absurd hzero hne
    · have hpos : 0 < start.toNat := Nat.pos_of_ne_zero fun h => hne (UInt64.toNat_inj.mp h)
      have hle' := UInt64.le_iff_toNat_le.mp hle
      have hlt := stop.toNat_lt
      have hsub := UInt64.toNat_sub_of_le stop start hle
      refine ⟨by omega, ?_⟩
      rw [UInt64.toNat_add, UInt64.toNat_one]
      exact Nat.mod_eq_of_lt (by omega)

/-- The size of a BAR whose operations have their exact results. -/
lemma toNat_barSize {start stop : UInt64} (h : NoWrap start stop) :
    (barSize start stop).toNat =
      if 0 < start.toNat ∧ start.toNat ≤ stop.toNat then stop.toNat - start.toNat + 1 else 0 := by
  rw [barSize]
  by_cases hzero : start = 0
  · simp [hzero]
  · have hpos : 0 < start.toNat := Nat.pos_of_ne_zero fun h => hzero (UInt64.toNat_inj.mp h)
    obtain ⟨hsub, hadd⟩ := h hzero
    rw [if_neg hzero, hadd, if_pos (by omega)]
    omega

/-- A field of a line as the code takes it, where it is there or not. -/
def part (line : List Char) (i : ℕ) : UInt64 :=
  ((Text.words Text.isAsciiWhitespace line).map parseHex)[i]?.getD 0

lemma toNat_part (line : List Char) (i : ℕ) : (part line i).toNat = (field line i).getD 0 := by
  rw [part, field, List.getElem?_map]
  cases (Text.words Text.isAsciiWhitespace line)[i]? with
  | none => rfl
  | some w =>
      rw [Option.map_some, Option.getD_some, Option.bind_some, parseHex]
      cases hhex : parseHexU64 (trimHexMarks w) with
      | none => rfl
      | some n => exact UInt64.toNat_ofNat_of_lt' (parseHexU64_lt hhex)

/-- A field that cannot be read counts as zero, and a range that ends there is not mapped. -/
lemma mappedSize_eq (line : List Char) :
    mappedSize line =
      if 0 < (part line 0).toNat ∧ (part line 0).toNat ≤ (part line 1).toNat then
        (part line 1).toNat - (part line 0).toNat + 1
      else 0 := by
  rw [mappedSize, toNat_part, toNat_part]
  cases field line 0 with
  | none => simp
  | some start =>
      cases field line 1 with
      | none =>
          rw [Option.getD_some, Option.getD_none, if_neg (by omega)]
      | some stop => rfl

lemma toNat_pciBar {line : List Char} (h : NoWrap (part line 0) (part line 1)) :
    (pciBar line).toNat = mappedSize line := by
  rw [mappedSize_eq]
  exact toNat_barSize h

/-- **The BARs are safe**: the arithmetic of each line is exact, each line has the size of
the range that it maps, and no card has more memory than its range. -/
structure BarsSafe (sysfs : Sysfs) (deviceDir : Path) : Prop where
  exact_ops : ∀ line ∈ resourceLines sysfs deviceDir, NoWrap (part line 0) (part line 1)
  sizes : (readPciBars sysfs deviceDir).map UInt64.toNat =
    (resourceLines sysfs deviceDir).map mappedSize
  nvidia : ∀ procModels drmIndex,
    (Nvidia.buildAccelerator sysfs procModels drmIndex deviceDir).memoryTotalBytes.getD 0 ≤
      ((resourceLines sysfs deviceDir)[1]?.map mappedSize).getD 0
  intel : ∀ drmIndex,
    (Intel.buildAccelerator sysfs drmIndex deviceDir).memoryTotalBytes.getD 0 ≤
      ((resourceLines sysfs deviceDir)[2]?.map mappedSize).getD 0

/-- An entry of a file whose arithmetic is exact. -/
lemma toNat_getElem?_readPciBars {sysfs : Sysfs} {deviceDir : Path}
    (h : ∀ line ∈ resourceLines sysfs deviceDir, NoWrap (part line 0) (part line 1)) (i : ℕ) :
    ((readPciBars sysfs deviceDir)[i]?.getD 0).toNat =
      ((resourceLines sysfs deviceDir)[i]?.map mappedSize).getD 0 := by
  rw [readPciBars, List.getElem?_map]
  cases hline : (resourceLines sysfs deviceDir)[i]? with
  | none => rfl
  | some line => exact toNat_pciBar (h line (List.mem_of_getElem? hline))

/-- **When the BARs are safe**: if no line has a start that its end, where it has none to be
read zero, comes before. -/
theorem barsSafe_iff (sysfs : Sysfs) (deviceDir : Path) :
    BarsSafe sysfs deviceDir ↔
      ∀ line ∈ resourceLines sysfs deviceDir,
        (field line 0).getD 0 = 0 ∨ (field line 0).getD 0 ≤ (field line 1).getD 0 := by
  have hlines : (∀ line ∈ resourceLines sysfs deviceDir,
      (field line 0).getD 0 = 0 ∨ (field line 0).getD 0 ≤ (field line 1).getD 0) ↔
      ∀ line ∈ resourceLines sysfs deviceDir, NoWrap (part line 0) (part line 1) := by
    refine forall₂_congr fun line _ => ?_
    rw [noWrap_iff, UInt64.le_iff_toNat_le, ← UInt64.toNat_inj, toNat_part, toNat_part]
    rfl
  rw [hlines]
  constructor
  · exact BarsSafe.exact_ops
  · intro hexact
    have hentry := toNat_getElem?_readPciBars hexact
    refine ⟨hexact, ?sizes, fun procModels drmIndex => ?nvidia, fun drmIndex => ?intel⟩
    case sizes =>
      rw [readPciBars, List.map_map]
      exact List.map_congr_left fun line hline => toNat_pciBar (hexact line hline)
    case nvidia =>
      rw [← hentry 1]
      exact Nvidia.memoryTotalBytes_le sysfs procModels drmIndex deviceDir
    case intel =>
      rw [← hentry 2]
      exact Intel.memoryTotalBytes_le sysfs drmIndex deviceDir

/-- A file whose second line ends after the start of its range. -/
def cutResource : Sysfs := fun path =>
  if path = ["sys", "devices", "pci0000:00", "0000:00:01.0", "resource"] then
    some "0x0000000000000000 0x0000000000000000 0x0000000000000000\n0x00000000e0000000\n"
  else none

/-- The size of the second BAR wraps, and the card has nearly `2 ^ 64` bytes of memory. -/
theorem cutResource_wraps :
    (readPciBars cutResource ["sys", "devices", "pci0000:00", "0000:00:01.0"]).map UInt64.toNat =
      [0, 18446744069951455233] ∧
    (Nvidia.buildAccelerator cutResource (fun _ => none) 0
      ["sys", "devices", "pci0000:00", "0000:00:01.0"]).memoryTotalBytes =
        some 18446744069951455233 ∧
    ¬BarsSafe cutResource ["sys", "devices", "pci0000:00", "0000:00:01.0"] := by
  have hbars : (readPciBars cutResource ["sys", "devices", "pci0000:00", "0000:00:01.0"]).map
      UInt64.toNat = [0, 18446744069951455233] := by decide +kernel
  have hmapped : (resourceLines cutResource ["sys", "devices", "pci0000:00", "0000:00:01.0"]).map
      mappedSize = [0, 0] := by decide +kernel
  refine ⟨hbars, by decide +kernel, fun h => ?_⟩
  have hsizes := h.sizes
  rw [hbars, hmapped] at hsizes
  exact absurd hsizes (by decide)

end Accelrd.Sensors
