import Mathlib.Data.String.Basic
import Mathlib.Tactic
import Accelrd.Library.Sorting
import Accelrd.Library.Words
import Accelrd.Sensors.Mounts
import Accelrd.Topology.Basic

/-!
`src/topology/rdma.rs`: the RDMA devices of a host, from the directories that the kernel
keeps of them under `/sys/class/infiniband`.

* `RdmaInventory.scan`: the code.
* `SysDevice`, `Shows`: the directories, as the kernel shows them. They are listed in any
  order, and any of their files may fail to be read.
* `scan_eq_inventory`: every port of every device is read, in the order of the names and of
  the indices.
-/

namespace Accelrd.Topology

open Sensors

/-! ### The code -/

/-- The names in each directory, for those that can be read. -/
abbrev Dirs : Type := Path → Option (List String)

/-- `SYSFS_INFINIBAND`. -/
def sysfsInfiniband : Path := ["sys", "class", "infiniband"]

/-- `read_trim`. -/
def readTrim (sysfs : Sysfs) (path : Path) : Option String :=
  ((sysfs path).map fun s => String.ofList (Text.trim s.toList)).filter (· ≠ "")

/-- `parse_enum`. -/
def parseEnum (s : Option String) : Option String :=
  s.bind fun v => (tokens v.toList).getLast?

/-- `parse_rate`. -/
def parseRate (s : Option String) : Option ℕ :=
  s.bind fun v => (tokens v.toList).head?.bind fun n => Text.parseUnsigned 32 n.toList

/-- The port in a directory, which is named by its index. -/
def scanPort (sysfs : Sysfs) (portsDir : Path) (name : String) : Option RdmaPort :=
  (Text.parseUnsigned 32 name.toList).map fun index =>
    let p := portsDir.join name
    { index := index
      state := (parseEnum (readTrim sysfs (p.join "state"))).getD ""
      physState := (parseEnum (readTrim sysfs (p.join "phys_state"))).getD ""
      linkLayer := (readTrim sysfs (p.join "link_layer")).getD ""
      rateGbps := parseRate (readTrim sysfs (p.join "rate")) }

/-- `scan_ports`. -/
def scanPorts (sysfs : Sysfs) (dirs : Dirs) (devDir : Path) : List RdmaPort :=
  match dirs (devDir.join "ports") with
  | none => []
  | some names =>
      (names.filterMap (scanPort sysfs (devDir.join "ports"))).insertionSort
        fun a b => a.index ≤ b.index

/-- The device in a directory. -/
def scanDevice (sysfs : Sysfs) (dirs : Dirs) (name : String) : RdmaDevice where
  name := name
  ports := scanPorts sysfs dirs (sysfsInfiniband.join name)

/-- `RdmaInventory::scan`. -/
def RdmaInventory.scan (sysfs : Sysfs) (dirs : Dirs) : RdmaInventory :=
  match dirs sysfsInfiniband with
  | none => ⟨[]⟩
  | some names => ⟨(names.map (scanDevice sysfs dirs)).insertionSort fun a b => a.name ≤ b.name⟩

/-! ### The directories of the kernel -/

/-- What the kernel calls a state: its number, and one word or several. -/
structure Mnemonic where
  code : ℕ
  front : List Word
  last : Word

/-- The file of a state, such as `4: ACTIVE`. -/
def Mnemonic.text (m : Mnemonic) : String :=
  String.ofList (List.intercalate [' '] ((toString m.code ++ ":").toList ::
    (m.front ++ [m.last]).map (·.text.toList)) ++ ['\n'])

/-- A rate in Gb/sec, which may be a half more than a whole number. -/
structure Rate where
  gbps : ℕ
  half : Bool
  width : ℕ
  speed : String
  gbps_lt : gbps < 2 ^ 32

/-- The number of a rate. -/
def Rate.number (r : Rate) : List Char :=
  (toString r.gbps).toList ++ if r.half then ['.', '5'] else []

/-- The file of a rate, such as `200 Gb/sec (4X NDR)`. -/
def Rate.text (r : Rate) : String :=
  String.ofList (r.number ++ ' ' ::
    ("Gb/sec (" ++ toString r.width ++ "X" ++ r.speed ++ ")\n").toList)

/-- A port, with the files that can be read. -/
structure SysPort where
  index : ℕ
  state : Option Mnemonic
  physState : Option Mnemonic
  linkLayer : Option Word
  rate : Option Rate
  index_lt : index < 2 ^ 32

/-- A device. -/
structure SysDevice where
  name : String
  ports : List SysPort
  ordered : ports.Pairwise fun p q => p.index < q.index

/-- The directory of a port. -/
def SysDevice.portDir (d : SysDevice) (p : SysPort) : Path :=
  ((sysfsInfiniband.join d.name).join "ports").join (toString p.index)

/-- The devices of a host. -/
structure SysInfiniband where
  devices : List SysDevice
  ordered : devices.Pairwise fun d e => d.name < e.name

/-- The kernel shows the devices of a host: the directories name the devices and their ports
in some order, and the files of each port are as above. -/
structure Shows (host : SysInfiniband) (sysfs : Sysfs) (dirs : Dirs) : Prop where
  devices : ((dirs sysfsInfiniband).getD []).Perm (host.devices.map (·.name))
  ports : ∀ d ∈ host.devices, ((dirs ((sysfsInfiniband.join d.name).join "ports")).getD []).Perm
    (d.ports.map fun p => toString p.index)
  state : ∀ d ∈ host.devices, ∀ p ∈ d.ports,
    sysfs ((d.portDir p).join "state") = p.state.map Mnemonic.text
  physState : ∀ d ∈ host.devices, ∀ p ∈ d.ports,
    sysfs ((d.portDir p).join "phys_state") = p.physState.map Mnemonic.text
  linkLayer : ∀ d ∈ host.devices, ∀ p ∈ d.ports,
    sysfs ((d.portDir p).join "link_layer") = p.linkLayer.map fun w => w.text ++ "\n"
  rate : ∀ d ∈ host.devices, ∀ p ∈ d.ports,
    sysfs ((d.portDir p).join "rate") = p.rate.map Rate.text

/-! ### What is read of them -/

/-- A rate as it is read: only a whole number is one. -/
def Rate.read (r : Rate) : Option ℕ := if r.half then none else some r.gbps

/-- A port as it is read: of a state the last word, and nothing of a file that cannot be
read. -/
def SysPort.read (p : SysPort) : RdmaPort where
  index := p.index
  state := (p.state.map (·.last.text)).getD ""
  physState := (p.physState.map (·.last.text)).getD ""
  linkLayer := (p.linkLayer.map (·.text)).getD ""
  rateGbps := p.rate.bind Rate.read

/-- A device as it is read. -/
def SysDevice.read (d : SysDevice) : RdmaDevice := ⟨d.name, d.ports.map SysPort.read⟩

/-- The devices as they are read. -/
def SysInfiniband.inventory (host : SysInfiniband) : RdmaInventory :=
  ⟨host.devices.map SysDevice.read⟩

/-- White space around a text adds no words. -/
lemma tokens_trim (cs : List Char) :
    tokens (String.ofList (Text.trim cs)).toList = tokens cs := by
  rw [String.toList_ofList, tokens, Text.words_trim, tokens]

/-- The words of a file that was trimmed are the words of the file. -/
lemma bind_readTrim {α : Type} (sysfs : Sysfs) (path : Path) {f : List String → Option α}
    (hf : f [] = none) :
    (readTrim sysfs path).bind (fun v => f (tokens v.toList)) =
      (sysfs path).bind fun s => f (tokens s.toList) := by
  cases h : sysfs path with
  | none => rw [readTrim, h]; rfl
  | some s =>
      rw [readTrim, h, Option.map_some, Option.bind_some]
      by_cases hempty : String.ofList (Text.trim s.toList) = ""
      · have htokens : tokens s.toList = [] := by
          rw [← tokens_trim, hempty]
          rfl
        rw [Option.filter_some_neg (by simpa using hempty), htokens, hf]
        rfl
      · rw [Option.filter_some_pos (by simpa using hempty), Option.bind_some, tokens_trim]

lemma parseEnum_readTrim (sysfs : Sysfs) (path : Path) :
    parseEnum (readTrim sysfs path) = (sysfs path).bind fun s => (tokens s.toList).getLast? :=
  bind_readTrim sysfs path (f := List.getLast?) rfl

lemma parseRate_readTrim (sysfs : Sysfs) (path : Path) :
    parseRate (readTrim sysfs path) = (sysfs path).bind fun s =>
      (tokens s.toList).head?.bind fun n => Text.parseUnsigned 32 n.toList :=
  bind_readTrim sysfs path (f := fun ws => ws.head?.bind fun n => Text.parseUnsigned 32 n.toList)
    rfl

lemma Mnemonic.getLast?_tokens (m : Mnemonic) :
    (tokens m.text.toList).getLast? = some m.last.text := by
  have hlast : tokens m.last.text.toList = [m.last.text] :=
    tokens_eq_singleton m.last.ne_empty m.last.no_space
  rw [text, String.toList_ofList, tokens, Text.words_concat (by decide),
    Text.words_intercalate (by decide), List.map_append, List.map_singleton, ← List.cons_append,
    List.flatMap_append, List.flatMap_singleton, List.map_append, ← tokens, hlast,
    List.getLast?_concat]

lemma Rate.head?_tokens (r : Rate) :
    (tokens r.text.toList).head? = some (String.ofList r.number) := by
  have hne : r.number ≠ [] := fun hnil => by
    have hdigits := (List.append_eq_nil_iff.mp hnil).1
    rw [Text.toList_toString] at hdigits
    exact Nat.toDigits_ne_nil hdigits
  have hspace : ∀ c ∈ r.number, Text.isWhitespace c = false := by
    refine List.forall_mem_append.mpr
      ⟨fun c hc => Text.isWhitespace_of_isDigit (Text.isDigit_of_mem_toString hc), ?_⟩
    split_ifs <;> exact Text.not_separates_of_all (by decide)
  rw [text, String.toList_ofList, tokens, Text.words_append_cons (by decide),
    Text.words_eq_singleton hne hspace]
  rfl

/-- A half is no numeral. -/
lemma Rate.parseUnsigned_number (r : Rate) : Text.parseUnsigned 32 r.number = r.read := by
  rw [number, read]
  cases r.half with
  | false =>
      rw [if_neg (by simp), if_neg (by simp), List.append_nil,
        Text.parseUnsigned_toString r.gbps_lt]
  | true =>
      rw [if_pos rfl, if_pos rfl]
      exact Text.parseUnsigned_eq_none (c := '.') (by simp) (by decide) (by decide)

lemma parseEnum_state {sysfs : Sysfs} {path : Path} {m : Option Mnemonic}
    (h : sysfs path = m.map Mnemonic.text) :
    parseEnum (readTrim sysfs path) = m.map (·.last.text) := by
  rw [parseEnum_readTrim, h]
  cases m with
  | none => rfl
  | some m => exact m.getLast?_tokens

lemma parseRate_rate {sysfs : Sysfs} {path : Path} {r : Option Rate}
    (h : sysfs path = r.map Rate.text) : parseRate (readTrim sysfs path) = r.bind Rate.read := by
  rw [parseRate_readTrim, h]
  cases r with
  | none => rfl
  | some r =>
      rw [Option.map_some, Option.bind_some, r.head?_tokens, Option.bind_some,
        String.toList_ofList, r.parseUnsigned_number, Option.bind_some]

/-- A line with one word is trimmed to that word. -/
lemma trim_word (w : Word) : Text.trim (w.text ++ "\n").toList = w.text.toList := by
  have hne : w.text.toList ≠ [] := fun hnil => w.ne_empty (String.toList_eq_nil_iff.mp hnil)
  have hhead : (w.text.toList ++ ['\n']).dropWhile Text.isWhitespace =
      w.text.toList ++ ['\n'] := by
    refine Text.dropWhile_eq_self fun c hc => w.no_space c (List.mem_of_mem_head? ?_)
    rwa [List.head?_append_of_ne_nil _ hne] at hc
  have hlast : w.text.toList.reverse.dropWhile Text.isWhitespace = w.text.toList.reverse :=
    Text.dropWhile_eq_self fun c hc =>
      w.no_space c (List.mem_reverse.mp (List.mem_of_mem_head? hc))
  rw [String.toList_append, Text.trim]
  change ((List.dropWhile Text.isWhitespace (w.text.toList ++ ['\n'])).reverse.dropWhile
    Text.isWhitespace).reverse = _
  rw [hhead, List.reverse_append, List.reverse_singleton, List.singleton_append,
    List.dropWhile_cons_of_pos (by decide), hlast, List.reverse_reverse]

lemma readTrim_layer {sysfs : Sysfs} {path : Path} {w : Option Word}
    (h : sysfs path = w.map fun w => w.text ++ "\n") :
    readTrim sysfs path = w.map (·.text) := by
  rw [readTrim, h]
  cases w with
  | none => rfl
  | some w =>
      rw [Option.map_some, Option.map_some, trim_word, String.ofList_toList,
        Option.filter_some_pos (by simpa using w.ne_empty), Option.map_some]

/-! ### The scan -/

variable {host : SysInfiniband} {sysfs : Sysfs} {dirs : Dirs}

/-- **A port is read.** -/
lemma scanPort_eq (h : Shows host sysfs dirs) {d : SysDevice} (hd : d ∈ host.devices)
    {p : SysPort} (hp : p ∈ d.ports) :
    scanPort sysfs ((sysfsInfiniband.join d.name).join "ports") (toString p.index) =
      some p.read := by
  have hstate := parseEnum_state (h.state d hd p hp)
  have hphys := parseEnum_state (h.physState d hd p hp)
  have hlayer := readTrim_layer (h.linkLayer d hd p hp)
  have hrate := parseRate_rate (h.rate d hd p hp)
  rw [SysDevice.portDir] at hstate hphys hlayer hrate
  rw [scanPort, Text.parseUnsigned_toString p.index_lt, Option.map_some, SysPort.read]
  dsimp only
  rw [hstate, hphys, hlayer, hrate]

lemma scanPorts_eq (h : Shows host sysfs dirs) {d : SysDevice} (hd : d ∈ host.devices) :
    scanPorts sysfs dirs (sysfsInfiniband.join d.name) = d.ports.map SysPort.read := by
  have hports := h.ports d hd
  have hsorted : (d.ports.map SysPort.read).Pairwise fun a b => a.index < b.index :=
    List.pairwise_map.mpr d.ordered
  rw [scanPorts]
  cases hdir : dirs ((sysfsInfiniband.join d.name).join "ports") with
  | none =>
      rw [hdir, Option.getD_none] at hports
      rw [List.map_eq_nil_iff.mp hports.symm.eq_nil, List.map_nil]
  | some names =>
      rw [hdir, Option.getD_some] at hports
      refine Sorting.insertionSort_eq_of_perm RdmaPort.index ?_ hsorted
      refine (hports.filterMap _).trans (List.Perm.of_eq ?_)
      rw [List.filterMap_map, ← List.filterMap_eq_map]
      exact List.filterMap_congr fun p hp => scanPort_eq h hd hp

lemma devices_scan (h : Shows host sysfs dirs) :
    (RdmaInventory.scan sysfs dirs).devices = host.devices.map SysDevice.read := by
  have hdevices := h.devices
  have hsorted : (host.devices.map SysDevice.read).Pairwise fun a b => a.name < b.name :=
    List.pairwise_map.mpr host.ordered
  rw [RdmaInventory.scan]
  cases hdir : dirs sysfsInfiniband with
  | none =>
      rw [hdir, Option.getD_none] at hdevices
      rw [List.map_eq_nil_iff.mp hdevices.symm.eq_nil, List.map_nil]
  | some names =>
      rw [hdir, Option.getD_some] at hdevices
      refine Sorting.insertionSort_eq_of_perm RdmaDevice.name ?_ hsorted
      refine (hdevices.map _).trans (List.Perm.of_eq ?_)
      rw [List.map_map]
      refine List.map_congr_left fun d hd => ?_
      rw [Function.comp_apply, scanDevice, SysDevice.read, scanPorts_eq h hd]

/-- **The scan reads what the kernel shows.** In whatever order the directories are listed,
the inventory has every device, in the order of the names, and each with every port, in the
order of the indices: with the last words of its states, its link layer and its whole rate, and
with nothing in place of a file that cannot be read. -/
theorem scan_eq_inventory (h : Shows host sysfs dirs) :
    RdmaInventory.scan sysfs dirs = host.inventory :=
  congrArg RdmaInventory.mk (devices_scan h)

lemma one_lt_index : 1 < 2 ^ 32 := by decide

lemma twoHundred_lt_rate : 200 < 2 ^ 32 := by decide

lemma down_plain : "DOWN" ≠ "" ∧ "DOWN".toList.all (!Text.isWhitespace ·) := by decide

lemma active_plain : "ACTIVE" ≠ "" ∧ "ACTIVE".toList.all (!Text.isWhitespace ·) := by decide

lemma ethernet_plain : "Ethernet" ≠ "" ∧ "Ethernet".toList.all (!Text.isWhitespace ·) := by decide

/-- A word without spaces. -/
def plainWord (s : String) (h : s ≠ "" ∧ s.toList.all (!Text.isWhitespace ·)) : Word :=
  ⟨s, h.1, Text.not_separates_of_all h.2⟩

/-- A device that is down. -/
def downDevice : SysDevice where
  name := "mlx5_0"
  ports := [⟨1, some ⟨1, [], plainWord "DOWN" down_plain⟩, none, none, none, one_lt_index⟩]
  ordered := List.pairwise_singleton _ _

/-- A device with an active Ethernet port. -/
def activeDevice : SysDevice where
  name := "mlx5_1"
  ports := [⟨1, some ⟨4, [], plainWord "ACTIVE" active_plain⟩, none,
    some (plainWord "Ethernet" ethernet_plain), some ⟨200, false, 4, " NDR", twoHundred_lt_rate⟩,
    one_lt_index⟩]
  ordered := List.pairwise_singleton _ _

lemma pairwise_firstDown :
    [downDevice, activeDevice].Pairwise fun d e => d.name < e.name := by decide

/-- A host whose first device is down. -/
def firstDown : SysInfiniband where
  devices := [downDevice, activeDevice]
  ordered := pairwise_firstDown

/-- Its files. -/
def firstDownFiles : Sysfs := fun path =>
  if path = ["sys", "class", "infiniband", "mlx5_0", "ports", "1", "state"] then some "1: DOWN\n"
  else if path = ["sys", "class", "infiniband", "mlx5_1", "ports", "1", "state"] then
    some "4: ACTIVE\n"
  else if path = ["sys", "class", "infiniband", "mlx5_1", "ports", "1", "link_layer"] then
    some "Ethernet\n"
  else if path = ["sys", "class", "infiniband", "mlx5_1", "ports", "1", "rate"] then
    some "200 Gb/sec (4X NDR)\n"
  else none

/-- Its directories, with the devices in some order. -/
def firstDownDirs (names : List String) : Dirs := fun path =>
  if path = sysfsInfiniband then some names else some ["1"]

lemma shows_firstDown {names : List String} (h : names.Perm ["mlx5_0", "mlx5_1"]) :
    Shows firstDown firstDownFiles (firstDownDirs names) where
  devices := h
  ports := by
    have hne (name : String) : (sysfsInfiniband.join name).join "ports" ≠ sysfsInfiniband := by
      simp [sysfsInfiniband, Path.join]
    intro d hd
    rw [firstDownDirs, if_neg (hne d.name)]
    revert d
    decide +kernel
  state := by decide +kernel
  physState := by decide +kernel
  linkLayer := by decide +kernel
  rate := by decide +kernel

/-- Its devices are listed the other way round. -/
theorem scan_eq_inventory_firstDown :
    RdmaInventory.scan firstDownFiles (firstDownDirs ["mlx5_1", "mlx5_0"]) =
      firstDown.inventory :=
  scan_eq_inventory (shows_firstDown (List.Perm.swap "mlx5_0" "mlx5_1" []))

end Accelrd.Topology
