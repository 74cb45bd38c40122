import Mathlib.Tactic
import Accelrd.Library.Insertions
import Accelrd.Library.JsonBytes
import Accelrd.Topology.Labels

/-!
`LabelSet::pretty` of `src/topology/labels.rs`, the preview of the labels and annotations that
a node without access to the cluster logs.

* `LabelSet.pretty`: the code, which cuts an annotation after 80 bytes.
* `isSome_pretty_iff`: the nodes whose preview can be printed.
-/

namespace Accelrd.Topology

open Std Sensors Utf8 Json

/-! ### The preview -/

/-- `preview`: an annotation, or its first 80 bytes. There is none if the slice panics. -/
def preview (v : String) : Option (List Char) :=
  if 80 < v.utf8ByteSize then (takeBytes 80 v.toList).map (· ++ ['…']) else some v.toList

/-- A line of the preview. -/
def previewLine (k : String) (v : List Char) : List Char :=
  ' ' :: ' ' :: k.toList ++ ' ' :: '=' :: ' ' :: v ++ ['\n']

/-- The lines of the annotations, none if one of the slices panics. -/
def annotationLines : List (String × String) → Option (List Char)
  | [] => some []
  | (k, v) :: es => do
      let shown ← preview v
      let rest ← annotationLines es
      return previewLine k shown ++ rest

/-- `LabelSet::pretty`, without a result if it panics. -/
def LabelSet.pretty (set : LabelSet) : Option String :=
  (annotationLines set.annotations.toList).map fun lines =>
    String.ofList ("labels:\n".toList ++
      set.labels.toList.flatMap (fun e => previewLine e.1 e.2.toList) ++
      "annotations:\n".toList ++ lines)

/-! ### Annotations that can be cut -/

lemma isSome_preview_iff (v : String) : (preview v).isSome ↔ ¬ Straddles 80 v.toList := by
  rw [preview]
  split_ifs with hlong
  · rw [Option.isSome_map, isSome_takeBytes_iff (by rw [size_toList]; omega)]
  · refine iff_of_true rfl (not_straddles_of_size_le ?_)
    rw [size_toList]
    omega

lemma isSome_annotationLines_iff (es : List (String × String)) :
    (annotationLines es).isSome ↔ ∀ e ∈ es, ¬ Straddles 80 e.2.toList := by
  induction es with
  | nil => exact iff_of_true rfl (List.forall_mem_nil _)
  | cons e es ih =>
      rw [List.forall_mem_cons, ← ih, ← isSome_preview_iff, annotationLines]
      cases preview e.2 with
      | none => exact iff_of_false Bool.false_ne_true fun h => absurd h.1 Bool.false_ne_true
      | some shown =>
          cases annotationLines es with
          | none => exact iff_of_false Bool.false_ne_true fun h => absurd h.2 Bool.false_ne_true
          | some rest => exact iff_of_true rfl ⟨rfl, rfl⟩

lemma isAscii_vendor (v : Vendor) : IsAscii v.slug.toList := by
  cases v <;> decide

lemma size_escape_vendor (v : Vendor) : size (escape v.slug) = v.slug.length := by
  cases v <;> decide

lemma three_le_vendor (v : Vendor) : 3 ≤ v.slug.length := by
  cases v <;> decide

lemma isAscii_memoryKind (k : MemoryKind) : IsAscii k.slug.toList := by
  cases k <;> decide

lemma six_le_memoryKind (k : MemoryKind) : 6 ≤ size (escape k.slug) := by
  cases k <;> decide

/-- The text of an inventory up to the first fabric domain. -/
lemma exists_chars_inventory (a : Accelerator) (accels : List Accelerator) :
    ∃ tail, (Json.list inventoryEntry (a :: accels)).chars =
      "[\x7b\"vendor\":".toList ++ (quote a.id.vendor.slug ++ (",\"model\":".toList ++
        (quote a.model ++ (",\"memory_kind\":".toList ++ (quote a.memoryKind.slug ++
          (",\"memory_total_bytes\":".toList ++ (chars (.option (fun n : ℕ => .num n)
            a.memoryTotalBytes) ++ (",\"fabric_domain\":".toList ++ tail)))))))) := by
  obtain ⟨t, ht⟩ := exists_itemChars_cons (inventoryEntry a) (accels.map inventoryEntry)
  rw [Json.list, List.map_cons, Json.chars, ht]
  simp only [inventoryEntry, Json.chars, memberChars, List.append_assoc, List.cons_append]
  exact ⟨_, rfl⟩

/-- Of an inventory only the model of the first accelerator can be cut. -/
lemma straddles_inventory_iff (accels : List Accelerator) :
    Straddles 80 (Json.list inventoryEntry accels).chars ↔
      ∃ a ∈ accels.head?, Cut 80 (23 + a.id.vendor.slug.length) a.model := by
  cases accels with
  | nil => exact iff_of_false (IsAscii.not_straddles (by decide) 80) (by simp)
  | cons a accels =>
      obtain ⟨tail, htail⟩ := exists_chars_inventory a accels
      have hvendor := three_le_vendor a.id.vendor
      have hkind := six_le_memoryKind a.memoryKind
      have hbytes := size_option_num_pos a.memoryTotalBytes
      show Straddles (80 - 0) _ ↔ _
      rw [htail, straddles_literal_append 11 (by decide),
        straddles_quote_append, straddles_literal_append 9 (by decide),
        straddles_quote_append, straddles_literal_append 15 (by decide),
        straddles_quote_append, straddles_literal_append 22 (by decide),
        straddles_ascii_append (isAscii_option_num _),
        straddles_literal_append 17 (by decide), size_escape_vendor]
      rw [show 0 + 11 + a.id.vendor.slug.length + 2 + 9 + 1 = 23 + a.id.vendor.slug.length by omega]
      constructor
      · rintro (h | h | h | h)
        · exact absurd h (not_cut_of_isAscii (isAscii_vendor _) _ _)
        · exact ⟨a, rfl, h⟩
        · exact absurd h (not_cut_of_isAscii (isAscii_memoryKind _) _ _)
        · exact absurd h (not_straddles_of_le (by omega) _)
      · rintro ⟨b, hb, h⟩
        obtain rfl := Option.some.inj hb
        exact Or.inr (Or.inl h)

lemma isAscii_fabricKind (k : FabricKind) : IsAscii k.kebab.toList := by
  cases k <;> decide

lemma four_le_fabricKind (k : FabricKind) : 4 ≤ size (escape k.kebab) := by
  cases k <;> decide

/-- The text of fabric domains up to the second of them. -/
lemma exists_chars_domains (d : FabricDomain) (domains : List FabricDomain) :
    ∃ tail, (Json.list FabricDomain.toJson (d :: domains)).chars =
        "[\x7b\"id\":".toList ++ (quote d.id ++ (",\"kind\":".toList ++ (quote d.kind.kebab ++
          (",\"member_accelerators\":[".toList ++
            (itemChars (d.memberAccelerators.map AcceleratorId.toJson) ++
              ("],\"aggregate_bandwidth_gbps\":".toList ++ (chars (.option (fun n : ℕ => .num n)
                d.aggregateBandwidthGbps) ++ ("\x7d".toList ++ tail)))))))) ∧
      (IsAscii tail ∨ ∃ rest, tail = ",\x7b\"id\":".toList ++ rest) := by
  rw [Json.list, List.map_cons, Json.chars]
  cases domains with
  | nil =>
      refine ⟨"]".toList, ?_, Or.inl (by decide)⟩
      simp only [List.map_nil, itemChars, FabricDomain.toJson, Json.list, Json.chars, memberChars,
        List.append_assoc, List.cons_append]
      rfl
  | cons e domains =>
      obtain ⟨t, ht⟩ := exists_itemChars_cons e.toJson (domains.map FabricDomain.toJson)
      rw [List.map_cons, itemChars_cons_cons, ht]
      simp only [FabricDomain.toJson, Json.list, Json.chars, memberChars, List.append_assoc,
        List.cons_append]
      exact ⟨_, rfl, Or.inr ⟨_, rfl⟩⟩

/-- The text of the members of a domain up to the address of the first. -/
lemma exists_itemChars_members (m : AcceleratorId) (members : List AcceleratorId) :
    ∃ tail, itemChars ((m :: members).map AcceleratorId.toJson) =
      "\x7b\"vendor\":".toList ++ (quote m.vendor.slug ++ (",\"drm_index\":".toList ++
        (numeral m.drmIndex ++ (",\"pci_addr\":".toList ++ tail)))) := by
  obtain ⟨t, ht⟩ := exists_itemChars_cons m.toJson (members.map AcceleratorId.toJson)
  rw [List.map_cons, ht]
  simp only [AcceleratorId.toJson, Json.chars, memberChars, List.append_assoc, List.cons_append]
  exact ⟨_, rfl⟩

/-- The address of a member begins too late to be cut, and so does the second domain. -/
lemma not_straddles_members {tail : List Char}
    (htail : IsAscii tail ∨ ∃ rest, tail = ",\x7b\"id\":".toList ++ rest)
    (members : List AcceleratorId) (gbps : Option ℕ) {o : ℕ} (ho : 47 ≤ o) :
    ¬ Straddles (80 - o) (itemChars (members.map AcceleratorId.toJson) ++
      ("],\"aggregate_bandwidth_gbps\":".toList ++
        (chars (.option (fun n : ℕ => .num n) gbps) ++ ("\x7d".toList ++ tail)))) := by
  cases members with
  | nil =>
      have hgbps := size_option_num_pos gbps
      rw [List.map_nil, itemChars, List.nil_append,
        straddles_literal_append 29 (by decide),
        straddles_ascii_append (isAscii_option_num gbps),
        straddles_literal_append 1 (by decide)]
      rcases htail with hascii | ⟨rest, rfl⟩
      · exact hascii.not_straddles _
      · rw [straddles_literal_append 7 (by decide)]
        exact not_straddles_of_le (by omega) rest
  | cons m members =>
      obtain ⟨rest, hrest⟩ := exists_itemChars_members m members
      have hvendor := three_le_vendor m.vendor
      have hindex := size_numeral_pos m.drmIndex
      simp only [hrest, List.append_assoc]
      rw [straddles_literal_append 10 (by decide), straddles_quote_append,
        straddles_literal_append 13 (by decide),
        straddles_ascii_append (isAscii_numeral m.drmIndex),
        straddles_literal_append 12 (by decide), size_escape_vendor]
      rintro (h | h)
      · exact not_cut_of_isAscii (isAscii_vendor _) _ _ h
      · exact not_straddles_of_le (by omega) _ h

/-- Of fabric domains only the id of the first can be cut. -/
lemma straddles_domains_iff (domains : List FabricDomain) :
    Straddles 80 (Json.list FabricDomain.toJson domains).chars ↔
      ∃ d ∈ domains.head?, Cut 80 8 d.id := by
  cases domains with
  | nil => exact iff_of_false (IsAscii.not_straddles (by decide) 80) (by simp)
  | cons d domains =>
      obtain ⟨tail, hchars, htail⟩ := exists_chars_domains d domains
      have hkind := four_le_fabricKind d.kind
      show Straddles (80 - 0) _ ↔ _
      rw [hchars, straddles_literal_append 7 (by decide),
        straddles_quote_append, straddles_literal_append 8 (by decide),
        straddles_quote_append, straddles_literal_append 24 (by decide)]
      constructor
      · rintro (h | h | h)
        · exact ⟨d, rfl, h⟩
        · exact absurd h (not_cut_of_isAscii (isAscii_fabricKind _) _ _)
        · exact absurd h (not_straddles_members htail _ _ (by omega))
      · rintro ⟨e, he, h⟩
        obtain rfl := Option.some.inj he
        exact Or.inl h

lemma isAscii_chassisIdKind (k : ChassisIdKind) : IsAscii k.lowercase.toList := by
  cases k <;> decide

lemma size_escape_chassisIdKind (k : ChassisIdKind) :
    size (escape k.lowercase) = k.lowercase.length := by
  cases k <;> decide

lemma three_le_chassisIdKind (k : ChassisIdKind) : 3 ≤ k.lowercase.length := by
  cases k <;> decide

/-- The text of neighbours up to the name of the first. -/
lemma exists_chars_neighbors (n : LldpNeighbor) (neighbors : List LldpNeighbor) :
    ∃ tail, (Json.list LldpNeighbor.toJson (n :: neighbors)).chars =
      "[\x7b\"interface\":".toList ++ (quote n.interface ++ (",\"chassis_id\":".toList ++
        (quote n.chassisId ++ (",\"chassis_id_kind\":".toList ++
          (quote n.chassisIdKind.lowercase ++ (",\"port_id\":".toList ++ (quote n.portId ++
            (",\"system_name\":".toList ++ tail)))))))) := by
  obtain ⟨t, ht⟩ := exists_itemChars_cons n.toJson (neighbors.map LldpNeighbor.toJson)
  rw [Json.list, List.map_cons, Json.chars, ht]
  simp only [LldpNeighbor.toJson, Json.chars, memberChars, List.append_assoc, List.cons_append]
  exact ⟨_, rfl⟩

/-- A string of a neighbour that can be cut: its interface, the id of its chassis or that of its
port. The name of the system begins too late. -/
def NeighborCut (n : LldpNeighbor) : Prop :=
  Cut 80 15 n.interface ∨ Cut 80 (31 + size (escape n.interface)) n.chassisId ∨
    Cut 80 (65 + size (escape n.interface) + size (escape n.chassisId) +
      n.chassisIdKind.lowercase.length) n.portId

/-- Of neighbours only strings of the first can be cut. -/
lemma straddles_neighbors_iff (neighbors : List LldpNeighbor) :
    Straddles 80 (Json.list LldpNeighbor.toJson neighbors).chars ↔
      ∃ n ∈ neighbors.head?, NeighborCut n := by
  cases neighbors with
  | nil => exact iff_of_false (IsAscii.not_straddles (by decide) 80) (by simp)
  | cons n neighbors =>
      obtain ⟨tail, htail⟩ := exists_chars_neighbors n neighbors
      have hkind := three_le_chassisIdKind n.chassisIdKind
      show Straddles (80 - 0) _ ↔ _
      rw [htail, straddles_literal_append 14 (by decide), straddles_quote_append,
        straddles_literal_append 14 (by decide), straddles_quote_append,
        straddles_literal_append 19 (by decide), straddles_quote_append,
        straddles_literal_append 11 (by decide), straddles_quote_append,
        straddles_literal_append 15 (by decide),
        size_escape_chassisIdKind]
      have hchassis : 0 + 14 + size (escape n.interface) + 2 + 14 + 1 =
          31 + size (escape n.interface) := by
        omega
      have hport : 0 + 14 + size (escape n.interface) + 2 + 14 + size (escape n.chassisId) + 2 +
          19 + n.chassisIdKind.lowercase.length + 2 + 11 + 1 = 65 + size (escape n.interface) +
            size (escape n.chassisId) + n.chassisIdKind.lowercase.length := by
        omega
      rw [hchassis, hport]
      constructor
      · rintro (h | h | h | h | h)
        · exact ⟨n, rfl, Or.inl h⟩
        · exact ⟨n, rfl, Or.inr (Or.inl h)⟩
        · exact absurd h (not_cut_of_isAscii (isAscii_chassisIdKind _) _ _)
        · exact ⟨n, rfl, Or.inr (Or.inr h)⟩
        · exact absurd h (not_straddles_of_le (by omega) _)
      · rintro ⟨m, hm, h⟩
        obtain rfl := Option.some.inj hm
        rcases h with h | h | h
        · exact Or.inl h
        · exact Or.inr (Or.inl h)
        · exact Or.inr (Or.inr (Or.inr (Or.inl h)))

/-- A string of an RDMA device that can be cut, for devices that are printed from the offset `o`
on: the name of a device in front of which no device has ports, and the states of the first
port. -/
def DevicesCut (o : ℕ) : List RdmaDevice → Prop
  | [] => False
  | d :: ds =>
      Cut 80 (o + 9) d.name ∨
        match d.ports with
        | [] => DevicesCut (o + size (escape d.name) + 23) ds
        | p :: _ =>
            Cut 80 (o + size (escape d.name) + size (numeral p.index) + 39) p.state ∨
              Cut 80 (o + size (escape d.name) + size (numeral p.index) +
                size (escape p.state) + 55) p.physState

/-- The text of a device without ports. -/
lemma chars_device {d : RdmaDevice} (h : d.ports = []) : d.toJson.chars =
    "\x7b\"name\":".toList ++ (quote d.name ++ ",\"ports\":[]\x7d".toList) := by
  rw [RdmaDevice.toJson, h]
  simp only [Json.list, Json.chars, memberChars, itemChars, List.map_nil, List.append_assoc,
    List.cons_append]
  rfl

/-- The text of a device up to the link layer of its first port. -/
lemma exists_chars_device {d : RdmaDevice} {p : RdmaPort} {ps : List RdmaPort}
    (h : d.ports = p :: ps) : ∃ tail, d.toJson.chars =
      "\x7b\"name\":".toList ++ (quote d.name ++ (",\"ports\":[\x7b\"index\":".toList ++
        (numeral p.index ++ (",\"state\":".toList ++ (quote p.state ++
          (",\"phys_state\":".toList ++ (quote p.physState ++
            (",\"link_layer\":".toList ++ tail)))))))) := by
  obtain ⟨t, ht⟩ := exists_itemChars_cons p.toJson (ps.map RdmaPort.toJson)
  rw [RdmaDevice.toJson, h]
  simp only [Json.list, Json.chars, memberChars, List.map_cons, ht]
  simp only [RdmaPort.toJson, Json.chars, memberChars, List.append_assoc, List.cons_append]
  exact ⟨_, rfl⟩

/-- A device without ports from its front. -/
lemma straddles_bareDevice_append {d : RdmaDevice} (hports : d.ports = []) (o : ℕ)
    (cs : List Char) : Straddles (80 - o) (d.toJson.chars ++ cs) ↔
      Cut 80 (o + 9) d.name ∨ Straddles (80 - (o + size (escape d.name) + 22)) cs := by
  have hoffset : o + 8 + size (escape d.name) + 2 + 12 = o + size (escape d.name) + 22 := by
    omega
  rw [chars_device hports]
  simp only [List.append_assoc]
  rw [straddles_literal_append 8 (by decide), straddles_quote_append,
    straddles_literal_append 12 (by decide), hoffset]

/-- A device with ports from its front. Whatever follows the states of its first port begins too
late. -/
lemma straddles_portedDevice_append {d : RdmaDevice} {p : RdmaPort} {ps : List RdmaPort}
    (hports : d.ports = p :: ps) {o : ℕ} (ho : 12 ≤ o) (cs : List Char) :
    Straddles (80 - o) (d.toJson.chars ++ cs) ↔ Cut 80 (o + 9) d.name ∨
      Cut 80 (o + size (escape d.name) + size (numeral p.index) + 39) p.state ∨
        Cut 80 (o + size (escape d.name) + size (numeral p.index) + size (escape p.state) + 55)
          p.physState := by
  obtain ⟨rest, hrest⟩ := exists_chars_device hports
  have hindex := size_numeral_pos p.index
  rw [hrest]
  simp only [List.append_assoc]
  rw [straddles_literal_append 8 (by decide), straddles_quote_append,
    straddles_literal_append 19 (by decide), straddles_ascii_append (isAscii_numeral p.index),
    straddles_literal_append 9 (by decide), straddles_quote_append,
    straddles_literal_append 14 (by decide), straddles_quote_append,
    straddles_literal_append 14 (by decide)]
  have hstate : o + 8 + size (escape d.name) + 2 + 19 + size (numeral p.index) + 9 + 1 =
      o + size (escape d.name) + size (numeral p.index) + 39 := by
    omega
  have hphys : o + 8 + size (escape d.name) + 2 + 19 + size (numeral p.index) + 9 +
      size (escape p.state) + 2 + 14 + 1 = o + size (escape d.name) +
        size (numeral p.index) + size (escape p.state) + 55 := by
    omega
  rw [hstate, hphys]
  refine or_congr_right (or_congr_right ?_)
  exact ⟨fun h => h.resolve_right (not_straddles_of_le (by omega) _), Or.inl⟩

/-- The items of a list of devices from their front. -/
lemma straddles_devices_iff {tail : List Char} (htail : IsAscii tail) (devices : List RdmaDevice)
    {o : ℕ} (ho : 12 ≤ o) :
    Straddles (80 - o) (itemChars (devices.map RdmaDevice.toJson) ++ tail) ↔
      DevicesCut o devices := by
  induction devices generalizing o with
  | nil => exact iff_of_false (htail.not_straddles _) id
  | cons d ds ih =>
      rw [DevicesCut]
      cases hports : d.ports with
      | nil =>
          cases ds with
          | nil =>
              rw [List.map_cons, List.map_nil, itemChars, straddles_bareDevice_append hports,
                DevicesCut]
              exact or_congr_right (iff_of_false (htail.not_straddles _) id)
          | cons e ds =>
              rw [List.map_cons, List.map_cons, itemChars_cons_cons, ← List.map_cons,
                List.append_assoc, straddles_bareDevice_append hports, List.cons_append,
                ← List.singleton_append, straddles_literal_append 1 (by decide)]
              exact or_congr_right (ih (by omega))
      | cons p ps =>
          obtain ⟨t, ht⟩ := exists_itemChars_cons d.toJson (ds.map RdmaDevice.toJson)
          rw [List.map_cons, ht, List.append_assoc]
          exact straddles_portedDevice_append hports ho _

lemma straddles_rdma_iff (r : RdmaInventory) :
    Straddles 80 r.toJson.chars ↔ DevicesCut 12 r.devices := by
  have hchars : r.toJson.chars = "\x7b\"devices\":[".toList ++
      (itemChars (r.devices.map RdmaDevice.toJson) ++ "]\x7d".toList) := by
    rw [RdmaInventory.toJson]
    simp only [Json.list, Json.chars, memberChars, List.append_assoc, List.cons_append]
    rfl
  show Straddles (80 - 0) _ ↔ _
  rw [hchars, straddles_literal_append 12 (by decide)]
  exact straddles_devices_iff (by decide) r.devices (Nat.le_refl 12)

/-! ### The preview of a node -/

section

variable [Json.Serializer] {sysfs : Sysfs} {topology : NodeTopology} {accels : List Accelerator}

lemma mem_annotations (e : String × String) :
    e ∈ (build sysfs topology accels).annotations.toList ↔
      e ∈ annotationEntries topology accels := by
  rw [build, ExtTreeMap.mem_toList_iff_getElem?_eq_some]
  refine ⟨Insertions.mem_of_getElem?_ofList, fun he => ?_⟩
  refine ExtTreeMap.getElem?_ofList_of_mem compare_self ?_ he
  simp only [annotationEntries]
  split_ifs <;> simp

/-- **The preview is printed if no annotation is cut inside a character.** -/
lemma isSome_pretty :
    ((build sysfs topology accels).pretty).isSome ↔
      ¬ Straddles 80 (Json.list inventoryEntry accels).chars ∧
      ¬ Straddles 80 (Json.list FabricDomain.toJson topology.fabricDomains).chars ∧
      ¬ Straddles 80 topology.rdma.toJson.chars ∧
      ¬ Straddles 80 (Json.list LldpNeighbor.toJson topology.lldpNeighbors).chars := by
  -- an annotation that is left out is that of an empty list, which is short
  have hrdma : topology.rdma.isEmpty → ¬ Straddles 80 topology.rdma.toJson.chars := by
    intro hempty
    rw [straddles_rdma_iff, List.isEmpty_iff.mp hempty]
    exact id
  have hlldp : topology.lldpNeighbors.isEmpty →
      ¬ Straddles 80 (Json.list LldpNeighbor.toJson topology.lldpNeighbors).chars := by
    intro hempty
    rw [straddles_neighbors_iff, List.isEmpty_iff.mp hempty]
    rintro ⟨n, hn, -⟩
    exact Option.not_mem_none n hn
  have hunless {b : Prop} [Decidable b] {key : String} {v : Json}
      (hb : b → ¬ Straddles 80 v.chars) :
      (∀ e ∈ (if b then [] else [(key, v.toString)]), ¬ Straddles 80 e.2.toList) ↔
        ¬ Straddles 80 v.chars := by
    split_ifs with h
    · exact iff_of_true (List.forall_mem_nil _) (hb h)
    · rw [List.forall_mem_singleton, Json.toList_toString]
  rw [LabelSet.pretty, Option.isSome_map, isSome_annotationLines_iff]
  simp only [mem_annotations]
  rw [annotationEntries, List.forall_mem_append, List.forall_mem_append, hunless hrdma,
    hunless hlldp, List.forall_mem_cons, List.forall_mem_singleton, Json.toList_toString,
    Json.toList_toString, and_assoc, and_assoc]

end

/-- **The preview is printed unless byte 80 of an annotation lies inside a character** of the
model of the first accelerator, of the id of the first fabric domain, of a name or a state of the
first RDMA devices, or of the interface, the chassis or the port of the first neighbour; whatever
serializer has printed the annotations. -/
theorem isSome_pretty_iff [Json.Serializer] (sysfs : Sysfs) (topology : NodeTopology)
    (accels : List Accelerator) :
    ((build sysfs topology accels).pretty).isSome ↔
      (∀ a ∈ accels.head?, ¬ Cut 80 (23 + a.id.vendor.slug.length) a.model) ∧
      (∀ d ∈ topology.fabricDomains.head?, ¬ Cut 80 8 d.id) ∧
      ¬ DevicesCut 12 topology.rdma.devices ∧
      (∀ n ∈ topology.lldpNeighbors.head?, ¬ NeighborCut n) := by
  rw [isSome_pretty, straddles_inventory_iff, straddles_domains_iff, straddles_rdma_iff,
    straddles_neighbors_iff]
  simp only [not_exists, not_and]

/-- A card with a model name in French. -/
def editionCard : Accelerator where
  id := ⟨.amd, 0, "0000:03:00.0"⟩
  model := "Radeon Pro V710 virtual function, 28 GB GDDR6, 5 nm, Édition OEM"
  memoryKind := .dedicated
  memoryTotalBytes := some 30064771072
  numaNode := some 0
  coverage := .full
  fabricDomain := none
  partitioned := false
  deviceDir := ["sys", "devices", "pci0000:00", "0000:03:00.0"]

/-- The first byte of `É` is the last of the preview: the slice panics. -/
theorem editionCard_not_shown :
    (build (fun _ => none) ⟨none, none, [], [], ⟨[]⟩⟩ [editionCard]).pretty = none := by
  rw [← Option.not_isSome_iff_eq_none, isSome_pretty, straddles_inventory_iff]
  rintro ⟨hmodel, -⟩
  refine hmodel ⟨editionCard, rfl,
    "Radeon Pro V710 virtual function, 28 GB GDDR6, 5 nm, ".toList, 'É', "dition OEM".toList, ?_⟩
  decide

end Accelrd.Topology
