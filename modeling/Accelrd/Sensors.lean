import Mathlib.Tactic
import Accelrd.Library.Json
import Accelrd.Library.Text

/-!
`src/sensors/mod.rs` and the file readers of `src/sensors/common.rs`: the accelerators of
a node, and what the kernel says about them under `/sys`.

A path is the list of its components below the root, and the file system is what a read
of each path returns.
-/

namespace Accelrd.Sensors

/-! ### Accelerators -/

/-- `Vendor`. -/
inductive Vendor where
  | amd
  | nvidia
  | intel
  | other
  deriving DecidableEq

/-- `Vendor::slug`, which is also how a vendor is serialized. -/
def Vendor.slug : Vendor → String
  | .amd => "amd"
  | .nvidia => "nvidia"
  | .intel => "intel"
  | .other => "other"

lemma Vendor.slug_injective : Function.Injective Vendor.slug := by
  intro v w
  cases v <;> cases w <;> simp [Vendor.slug]

/-- `MemoryKind`. -/
inductive MemoryKind where
  | dedicated
  | unified
  | shared
  | unknown
  deriving DecidableEq

/-- `MemoryKind::slug`. -/
def MemoryKind.slug : MemoryKind → String
  | .dedicated => "dedicated"
  | .unified => "unified"
  | .shared => "shared"
  | .unknown => "unknown"

/-- `Coverage`. -/
inductive Coverage where
  | full
  | identificationOnly
  | failed
  deriving DecidableEq

/-- `Coverage::slug`. -/
def Coverage.slug : Coverage → String
  | .full => "full"
  | .identificationOnly => "identification-only"
  | .failed => "failed"

/-- `AcceleratorId`. -/
structure AcceleratorId where
  vendor : Vendor
  drmIndex : ℕ
  pciAddr : String
  deriving DecidableEq

/-- The place of a vendor in the order of its variants. -/
def Vendor.rank : Vendor → ℕ
  | .amd => 0
  | .nvidia => 1
  | .intel => 2
  | .other => 3

lemma Vendor.rank_injective : Function.Injective Vendor.rank := by
  intro v w
  cases v <;> cases w <;> simp [rank]

/-- Accelerator ids are ordered field by field. -/
instance : Ord AcceleratorId where
  compare := compareLex (compareOn fun id => id.vendor.rank)
    (compareLex (compareOn AcceleratorId.drmIndex) (compareOn AcceleratorId.pciAddr))

instance : Std.TransOrd AcceleratorId := inferInstanceAs (Std.TransCmp (compareLex _ _))

instance : Std.LawfulEqOrd AcceleratorId where
  eq_of_compare {i j} h := by
    obtain ⟨hvendor, hrest⟩ := compareLex_eq_eq.mp h
    obtain ⟨hindex, haddr⟩ := compareLex_eq_eq.mp hrest
    have hvendor : i.vendor = j.vendor := Vendor.rank_injective (Std.compare_eq_iff_eq.mp hvendor)
    have hindex : i.drmIndex = j.drmIndex := Std.compare_eq_iff_eq.mp hindex
    have haddr : i.pciAddr = j.pciAddr := Std.compare_eq_iff_eq.mp haddr
    cases i
    cases j
    simp_all

/-- The JSON of an accelerator id. -/
def AcceleratorId.toJson (id : AcceleratorId) : Json :=
  .obj [("vendor", .str id.vendor.slug), ("drm_index", .num id.drmIndex),
    ("pci_addr", .str id.pciAddr)]

/-- `PathBuf`, for the absolute paths that the enumeration of devices resolves. -/
abbrev Path : Type := List String

/-- `Path::parent`: the root has none. -/
def Path.parent : Path → Option Path
  | [] => none
  | c :: cs => some (c :: cs).dropLast

/-- `Path::join` with one file name. -/
def Path.join (p : Path) (name : String) : Path := p ++ [name]

/-- `Accelerator`. -/
structure Accelerator where
  id : AcceleratorId
  model : String
  memoryKind : MemoryKind
  memoryTotalBytes : Option ℕ
  numaNode : Option ℤ
  coverage : Coverage
  fabricDomain : Option String
  partitioned : Bool
  deviceDir : Path

/-- A card of which little is known. -/
def bareCard (id : AcceleratorId) (deviceDir : Path) : Accelerator where
  id := id
  model := "unknown"
  memoryKind := .unknown
  memoryTotalBytes := none
  numaNode := none
  coverage := .identificationOnly
  fabricDomain := none
  partitioned := false
  deviceDir := deviceDir

/-! ### Reading `/sys` -/

/-- What a read of each file returns, for the files that can be read as text. -/
abbrev Sysfs : Type := Path → Option String

/-- `read_u64`. -/
def readU64 (sysfs : Sysfs) (path : Path) : Option ℕ :=
  (sysfs path).bind fun s => Text.parseUnsigned 64 (Text.trim s.toList)

/-- `sriov_capacity`: the functions a device supports, and those configured. -/
def sriovCapacity (sysfs : Sysfs) (deviceDir : Path) : Option (ℕ × ℕ) :=
  (readU64 sysfs (deviceDir.join "sriov_totalvfs")).map fun total =>
    (total, (readU64 sysfs (deviceDir.join "sriov_numvfs")).getD 0)

end Accelrd.Sensors
