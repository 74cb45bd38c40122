import Mathlib.Tactic
import Accelrd.Library.LabelSyntax
import Accelrd.Library.Words
import Accelrd.Topology.Lldp
import Accelrd.Topology.RackInference
import Accelrd.Topology.DomainId

/-!
Which label sets of a node the API server takes: it refuses a patch as a whole for one key
or value that has not the form of a label.

* `isNameChar_of_mem_slugify`, `isNameChar_of_mem_rackSlug`: slugs have the characters of
  labels, whatever was received. Their length and their ends are another matter.
* `acceptable_iff`: one group of insertions after the other.
* `discover_acceptable_iff`: which models and switches a node can have.
-/

namespace Accelrd.Topology

open Std Sensors Insertions LabelSyntax

/-! ### Slugs -/

lemma isNameChar_of_mem_squash {lastDash : Bool} {cs : List Char} :
    ∀ c ∈ squash lastDash cs, isNameChar c := by
  induction cs generalizing lastDash with
  | nil => exact List.forall_mem_nil _
  | cons a cs ih =>
      simp only [squash]
      split_ifs with hkeep hdash
      · refine List.forall_mem_cons.mpr ⟨?_, ih⟩
        simp only [isNameChar, Bool.or_eq_true, decide_eq_true_eq] at hkeep ⊢
        exact Or.inl hkeep
      · exact ih
      · exact List.forall_mem_cons.mpr ⟨by decide, ih⟩

/-- The slug of a model has the characters of a label. -/
lemma isNameChar_of_mem_slugify {s : String} : ∀ c ∈ (slugify s).toList, isNameChar c := by
  rw [slugify]
  split_ifs
  · decide
  · intro c hc
    rw [String.toList_ofList] at hc
    exact isNameChar_of_mem_squash c ((Text.isInfix_trimMatches '-' _).subset hc)

lemma isNameChar_of_mem_lldpSlugify {s : String} :
    ∀ c ∈ (lldpSlugify s).toList, isNameChar c := by
  intro c hc
  rw [lldpSlugify, String.toList_ofList] at hc
  exact isNameChar_of_mem_squash c ((Text.isInfix_trimMatches '-' _).subset hc)

/-- A byte is written as two of the sixteen digits. -/
lemma forall_mem_hexByte {P : Char → Prop} (h : ∀ i < 16, P (Nat.digitChar i)) (b : UInt8) :
    ∀ c ∈ Lldp.hexByte b, P c := by
  have hb := b.toNat_lt
  exact List.forall_mem_cons.mpr ⟨h _ (by omega),
    List.forall_mem_cons.mpr ⟨h _ (by omega), List.forall_mem_nil _⟩⟩

lemma isAlphanum_of_mem_hexByte {b : UInt8} : ∀ c ∈ Lldp.hexByte b, c.isAlphanum :=
  forall_mem_hexByte (by decide) b

/-- A chassis id of the kind `mac` is a MAC address. -/
lemma exists_of_parseChassisId {val : List UInt8} {id : String}
    (h : Lldp.parseChassisId val = some (id, .mac)) : ∃ bytes, id = Lldp.macToString bytes := by
  cases val with
  | nil => exact absurd h (by simp [Lldp.parseChassisId])
  | cons subtype body =>
      rw [Lldp.parseChassisId] at h
      split_ifs at h
      · exact ⟨body, (Prod.mk.inj (Option.some.inj h)).1.symm⟩
      · obtain ⟨s, -, hs⟩ := Option.map_eq_some_iff.mp h
        exact absurd (Prod.mk.inj hs).2 (by decide)
      · exact absurd (Prod.mk.inj (Option.some.inj h)).2 (by decide)

/-- The neighbour was read from a frame. -/
def Received (n : LldpNeighbor) : Prop :=
  ∃ buf, Lldp.parseLldpdu buf n.interface = .ok (some n)

/-- The chassis id of a neighbour comes from a record of its frame. -/
lemma Received.exists_chassis {n : LldpNeighbor} (h : Received n) :
    ∃ val, Lldp.parseChassisId val = some (n.chassisId, n.chassisIdKind) := by
  obtain ⟨buf, hbuf⟩ := h
  rw [Lldp.parseLldpdu_eq] at hbuf
  have hneighbor := Except.ok.inj hbuf
  rw [Lldp.Fields.neighbor] at hneighbor
  split at hneighbor
  · rename_i chassisId kind portId hchassis _
    have hn := Option.some.inj hneighbor
    rw [← congrArg LldpNeighbor.chassisId hn, ← congrArg LldpNeighbor.chassisIdKind hn]
    rw [Lldp.Fields.get_assignAll Lldp.Fields.chassis_assign] at hchassis
    cases hlast : ((Tlv.decode buf).filter (·.type = 1)).getLast? with
    | none => rw [hlast] at hchassis; exact absurd hchassis (by simp)
    | some r =>
        rw [hlast] at hchassis
        exact ⟨r.value, hchassis⟩
  · exact absurd hneighbor (by simp)

/-- A MAC address has hexadecimal digits between its colons. -/
lemma Received.exists_hexByte {n : LldpNeighbor} (h : Received n) (hkind : n.chassisIdKind = .mac) :
    ∀ c ∈ n.chassisId.toList.filter (· ≠ ':'), ∃ b, c ∈ Lldp.hexByte b := by
  obtain ⟨val, hval⟩ := h.exists_chassis
  rw [hkind] at hval
  obtain ⟨bytes, hbytes⟩ := exists_of_parseChassisId hval
  intro c hc
  obtain ⟨hmem, hcolon⟩ := List.mem_filter.mp hc
  rw [hbytes, Lldp.macToString, String.toList_ofList] at hmem
  obtain rfl | ⟨digits, hdigits, hc⟩ := Text.mem_intercalate hmem
  · exact absurd hcolon (by decide)
  · obtain ⟨b, -, rfl⟩ := List.mem_map.mp hdigits
    exact ⟨b, hc⟩

/-- The slug of a switch has the characters of a label. -/
lemma Received.isNameChar_of_mem_rackSlug {n : LldpNeighbor} (h : Received n) :
    ∀ c ∈ n.rackSlug.toList, isNameChar c := by
  rw [LldpNeighbor.rackSlug]
  cases hkind : n.chassisIdKind with
  | mac =>
      intro c hc
      simp only [String.toList_ofList] at hc
      obtain ⟨b, hb⟩ := h.exists_hexByte hkind c hc
      exact isNameChar_of_isAlphanum (isAlphanum_of_mem_hexByte c hb)
  | name => exact isNameChar_of_mem_lldpSlugify
  | other => exact isNameChar_of_mem_lldpSlugify

/-! ### Counts -/

/-- A key and a value that the API server takes. -/
def ValidEntry (e : String × String) : Prop := ValidKey e.1 ∧ ValidValue e.2

lemma ValidEntry.of_count {key : String} (hkey : ValidKey key) {n : ℕ} (hn : n < 10 ^ 63) :
    ValidEntry (key, toString n) := ⟨hkey, validValue_toString hn⟩

/-- The labels of a count. -/
lemma mem_emitCountLabels_countBy {accels : List Accelerator} {key : Accelerator → String}
    {pre : String} {e : String × String} (h : e ∈ emitCountLabels pre (countBy accels key)) :
    ∃ a ∈ accels, ∃ n : ℕ, n ≤ accels.length ∧
      e = (pre ++ "." ++ key a ++ ".count", toString n) := by
  obtain ⟨⟨k, n⟩, hmem, rfl⟩ := List.mem_map.mp h
  rw [ExtTreeMap.mem_toList_iff_getElem?_eq_some, getElem?_countBy] at hmem
  have hn := tally_le_length hmem
  rw [List.length_map] at hn
  rw [tally] at hmem
  split_ifs at hmem with hcount
  obtain ⟨a, ha, rfl⟩ := List.mem_map.mp (List.count_pos_iff.mp (Nat.pos_of_ne_zero hcount))
  exact ⟨a, ha, n, hn, rfl⟩

/-- Every counted word has a label. -/
lemma exists_mem_emitCountLabels {accels : List Accelerator} (key : Accelerator → String)
    (pre : String) {a : Accelerator} (ha : a ∈ accels) :
    ∃ n : ℕ, (pre ++ "." ++ key a ++ ".count", toString n)
      ∈ emitCountLabels pre (countBy accels key) := by
  have hcount : (accels.map key).count (key a) ≠ 0 :=
    (List.count_pos_iff.mpr (List.mem_map_of_mem ha)).ne'
  have hlookup : (countBy accels key)[key a]? = some ((accels.map key).count (key a)) := by
    rw [getElem?_countBy, tally, if_neg hcount]
  exact ⟨_, List.mem_map.mpr ⟨(key a, _),
    ExtTreeMap.mem_toList_iff_getElem?_eq_some.mpr hlookup, rfl⟩⟩

/-- A count of domain members is no more than all of them. -/
lemma domainCounts_le {domains : List FabricDomain} {id : String} {n : ℕ}
    (h : (domainCounts domains)[id]? = some n) :
    n ≤ (domains.flatMap FabricDomain.memberAccelerators).length := by
  rw [domainCounts_eq, getElem?_foldl_addCount, Rollup.valuesOf] at h
  split_ifs at h
  · simp at h
  · obtain rfl := Option.some.inj h
    rw [List.length_flatMap, List.filter_map, List.map_map, ExtTreeMap.getD_empty, Nat.zero_add]
    exact (List.filter_sublist.map _).sum_le_sum fun _ _ => Nat.zero_le _

lemma physicalFuncs_append_of_none {accels : List Accelerator} {a : Accelerator}
    (h : a.deviceDir.parent = none) : physicalFuncs (accels ++ [a]) = physicalFuncs accels := by
  simp only [physicalFuncs, List.foldl_append, List.foldl_cons, List.foldl_nil, h]

lemma physicalFuncs_append_of_some {accels : List Accelerator} {a : Accelerator} {parent : Path}
    (h : a.deviceDir.parent = some parent) :
    physicalFuncs (accels ++ [a]) = (physicalFuncs accels).insert a.id.vendor.slug
      (((physicalFuncs accels).getD a.id.vendor.slug []).insert parent) := by
  simp only [physicalFuncs, List.foldl_append, List.foldl_cons, List.foldl_nil, h]

/-- The parent directories of a vendor are those of its accelerators. -/
lemma physicalFuncs_spec {accels : List Accelerator} {slug : String} {funcs : List Path}
    (h : (physicalFuncs accels)[slug]? = some funcs) :
    (∃ v : Vendor, slug = v.slug) ∧ 0 < funcs.length ∧
      funcs.length ≤ (accels.map fun a => a.id.vendor.slug).count slug := by
  induction accels using List.reverseRecOn generalizing slug funcs with
  | nil => exact absurd h (by simp [physicalFuncs])
  | append_singleton accels a ih =>
      rw [List.map_append, List.count_append]
      cases hparent : a.deviceDir.parent with
      | none =>
          rw [physicalFuncs_append_of_none hparent] at h
          exact ⟨(ih h).1, (ih h).2.1, (ih h).2.2.trans (Nat.le_add_right _ _)⟩
      | some parent =>
          rw [physicalFuncs_append_of_some hparent] at h
          simp only [ExtTreeMap.getElem?_insert, Std.compare_eq_iff_eq] at h
          split_ifs at h with hslug
          · obtain rfl := Option.some.inj h
            have hold : ((physicalFuncs accels).getD a.id.vendor.slug []).length
                ≤ (accels.map fun a => a.id.vendor.slug).count slug := by
              rw [ExtTreeMap.getD_eq_getD_getElem?, hslug]
              cases hfuncs : (physicalFuncs accels)[slug]? with
              | none => exact Nat.zero_le _
              | some old => exact (ih hfuncs).2.2
            have hone : ([a].map fun a => a.id.vendor.slug).count slug = 1 := by
              rw [List.map_singleton, hslug, List.count_singleton_self]
            refine ⟨⟨a.id.vendor, hslug.symm⟩, ?_⟩
            by_cases hmem : parent ∈ (physicalFuncs accels).getD a.id.vendor.slug []
            · have hpos := List.length_pos_of_mem hmem
              rw [List.length_insert_of_mem hmem]
              omega
            · rw [List.length_insert_of_not_mem hmem]
              omega
          · exact ⟨(ih h).1, (ih h).2.1, (ih h).2.2.trans (Nat.le_add_right _ _)⟩

lemma readU64_lt {sysfs : Sysfs} {path : Path} {n : ℕ} (h : readU64 sysfs path = some n) :
    n < 2 ^ 64 := by
  obtain ⟨s, -, hs⟩ := Option.bind_eq_some_iff.mp h
  exact Text.parseUnsigned_lt hs

/-- The functions of a node fit into 64 bits. -/
lemma sriov_lt {sysfs : Sysfs} {accels : List Accelerator} {e : ℕ × ℕ}
    (h : sriov sysfs accels = some e) : e.1 < 2 ^ 64 ∧ e.2 < 2 ^ 64 := by
  induction accels using List.reverseRecOn generalizing e with
  | nil => exact absurd h (by simp [sriov])
  | append_singleton accels a ih =>
      cases hcapacity : a.deviceDir.parent.bind (sriovCapacity sysfs) with
      | none =>
          have hstep : sriov sysfs (accels ++ [a]) = sriov sysfs accels := by
            simp only [sriov, List.foldl_append, List.foldl_cons, List.foldl_nil, hcapacity]
          rw [hstep] at h
          exact ih h
      | some c =>
          have hstep : sriov sysfs (accels ++ [a])
              = some (max ((sriov sysfs accels).getD (0, 0)).1 c.1,
                (((sriov sysfs accels).getD (0, 0)).2 + c.2) % 2 ^ 64) := by
            simp only [sriov, List.foldl_append, List.foldl_cons, List.foldl_nil, hcapacity]
          rw [hstep] at h
          obtain rfl := Option.some.inj h
          refine ⟨max_lt ?_ ?_, Nat.mod_lt _ (by decide)⟩
          · cases hold : sriov sysfs accels with
            | none => decide
            | some old => exact (ih hold).1
          · obtain ⟨dir, -, hdir⟩ := Option.bind_eq_some_iff.mp hcapacity
            obtain ⟨total, htotal, rfl⟩ := Option.map_eq_some_iff.mp hdir
            exact readU64_lt htotal

/-! ### Keys -/

/-- The key of a count is a name if the word is short enough. -/
lemma validKey_count_iff {pre key : String} {name : List Char}
    (hpre : pre.toList.dropWhile (· ≠ '/') = '/' :: name) (hname : StartsAlnum name)
    (hchars : ∀ c ∈ name, isNameChar c) (hkey : ∀ c ∈ key.toList, isNameChar c) :
    ValidKey (pre ++ "." ++ key ++ ".count") ↔ name.length + key.length + 7 ≤ 63 := by
  have hpart : namePart (pre ++ "." ++ key ++ ".count")
      = (name ++ ['.']) ++ key.toList ++ ".count".toList := by
    rw [String.append_assoc, String.append_assoc, namePart_append hpre]
    simp [String.toList_append]
  rw [ValidKey, hpart, isName_wrap (hname.append _) (by decide) ?_ hkey]
  · rw [List.length_append, List.length_singleton, String.length_toList, String.length_toList]
    have hcount : ".count".length = 6 := by decide
    omega
  · exact List.forall_mem_append.mpr ⟨List.forall_mem_append.mpr ⟨hchars, by decide⟩, by decide⟩

/-- The key of a model. -/
lemma validKey_model_iff (model : String) :
    ValidKey ("accel.lunnova.dev/model" ++ "." ++ slugify model ++ ".count") ↔
      (slugify model).length ≤ 51 := by
  have hpre : "accel.lunnova.dev/model".toList.dropWhile (· ≠ '/') = '/' :: "model".toList := by
    decide
  rw [validKey_count_iff hpre (by decide) (by decide) isNameChar_of_mem_slugify]
  have hmodel : "model".toList.length = 5 := by decide
  omega

/-- The key of a switch. -/
lemma validKey_chassis_iff {n : LldpNeighbor} (hn : Received n) :
    ValidKey ("accel-topo.lunnova.dev/lldp.chassis." ++ n.rackSlug) ↔
      n.rackSlug.length ≤ 50 ∧ EndsAlnum n.rackSlug.toList := by
  have hpre : "accel-topo.lunnova.dev/lldp.chassis.".toList.dropWhile (· ≠ '/')
      = '/' :: "lldp.chassis.".toList := by decide
  rw [ValidKey, namePart_append hpre,
    isName_suffix (by decide) (by decide) (by decide) hn.isNameChar_of_mem_rackSlug]
  have hchassis : "lldp.chassis.".toList.length = 13 := by decide
  rw [hchassis, String.length_toList]
  exact and_congr_left fun _ => by omega

/-- The key of a fabric domain. -/
lemma validKey_domain (hash : List String → UInt64) (members : List AcceleratorId) :
    ValidKey ("accel-topo.lunnova.dev/fabric-domain." ++ stableDomainId hash members) := by
  have hpre : "accel-topo.lunnova.dev/fabric-domain.".toList.dropWhile (· ≠ '/')
      = '/' :: "fabric-domain.".toList := by decide
  obtain ⟨n, hn, hid⟩ : ∃ n < 2 ^ 32,
      (stableDomainId hash members).toList = "fab-".toList ++ Nat.toDigits 16 n := by
    refine ⟨_, ?_, (String.toList_append).trans (congrArg _ String.toList_ofList)⟩
    rw [UInt64.toNat_and]
    exact Nat.and_lt_two_pow _ (n := 32) (by decide)
  have hlength : (Nat.toDigits 16 n).length ≤ 8 :=
    (Nat.length_toDigits_le_iff (by decide) (by decide)).mpr hn
  have hname : IsName (Nat.toDigits 16 n) := isName_of_alphanum Nat.toDigits_ne_nil (by omega)
    (Text.isAlphanum_of_mem_toDigits (by decide) (by decide))
  have hstarts : StartsAlnum ("fabric-domain.".toList ++ "fab-".toList) := by decide
  have hfixed : ("fabric-domain.".toList ++ "fab-".toList).length = 18 := by decide
  rw [ValidKey, namePart_append hpre, hid, ← List.append_assoc,
    isName_suffix hstarts (by decide) (by decide) hname.chars]
  exact ⟨by omega, hname.ends⟩

/-! ### The groups -/

/-- What is known of a topology that `discover` returns, and of the sizes of its lists. -/
structure Sound (topology : NodeTopology) (accels : List Accelerator) : Prop where
  block : ∀ v, topology.block = some v → ValidValue v
  ids : ∀ d ∈ topology.fabricDomains, ∃ hash members, d.id = stableDomainId hash members
  received : ∀ n ∈ topology.lldpNeighbors, Received n
  accels_lt : accels.length < 10 ^ 63
  domains_lt : topology.fabricDomains.length < 10 ^ 63
  members_lt : (topology.fabricDomains.flatMap FabricDomain.memberAccelerators).length < 10 ^ 63
  neighbors_lt : topology.lldpNeighbors.length < 10 ^ 63
  devices_lt : topology.rdma.devices.length < 10 ^ 63

/-- The conditions on the words that stand in keys, and on the rack. -/
structure Labelable (topology : NodeTopology) (accels : List Accelerator) : Prop where
  rack : ∀ v, topology.rack = some v → ValidValue v
  models : ∀ a ∈ accels, (slugify a.model).length ≤ 51
  chassis : ∀ n ∈ firstOfChassis [] topology.lldpNeighbors,
    n.rackSlug.length ≤ 50 ∧ EndsAlnum n.rackSlug.toList

lemma firstOfChassis_sublist (seen : List String) (neighbors : List LldpNeighbor) :
    (firstOfChassis seen neighbors).Sublist neighbors := by
  induction neighbors generalizing seen with
  | nil => exact .slnil
  | cons n neighbors ih =>
      rw [firstOfChassis]
      split_ifs
      · exact (ih _).cons _
      · exact (ih _).cons_cons _

section Groups

variable {sysfs : Sysfs} {topology : NodeTopology} {accels : List Accelerator}

lemma validEntry_domains (h : Sound topology accels) :
    ∀ e ∈ (domainCounts topology.fabricDomains).toList.map (fun (id, count) =>
      ("accel-topo.lunnova.dev/fabric-domain." ++ id, toString count)), ValidEntry e := by
  refine List.forall_mem_map.mpr fun ⟨id, count⟩ hmem => ?_
  rw [ExtTreeMap.mem_toList_iff_getElem?_eq_some] at hmem
  have hid : id ∈ domainCounts topology.fabricDomains := by
    rw [ExtTreeMap.mem_iff_isSome_getElem?, hmem]
    rfl
  obtain ⟨d, hd, rfl⟩ := List.mem_map.mp (mem_domainCounts.mp hid)
  obtain ⟨hash, members, hdid⟩ := h.ids d hd
  have hkey : ValidKey ("accel-topo.lunnova.dev/fabric-domain." ++ d.id) := by
    rw [hdid]
    exact validKey_domain hash members
  exact .of_count hkey ((domainCounts_le hmem).trans_lt h.members_lt)

/-- The labels of a count whose words are good. -/
lemma validEntry_counts {pre : String} {key : Accelerator → String}
    (haccels : accels.length < 10 ^ 63)
    (hkey : ∀ a ∈ accels, ValidKey (pre ++ "." ++ key a ++ ".count")) :
    ∀ e ∈ emitCountLabels pre (countBy accels key), ValidEntry e := by
  intro e he
  obtain ⟨a, ha, n, hn, rfl⟩ := mem_emitCountLabels_countBy he
  exact .of_count (hkey a ha) (hn.trans_lt haccels)

lemma validEntry_physical (haccels : accels.length < 10 ^ 63) :
    ∀ e ∈ (physicalFuncs accels).toList.map (fun (vendor, funcs) =>
      ("accel.lunnova.dev/vendor." ++ vendor ++ ".physical-count", toString funcs.length)),
      ValidEntry e := by
  refine List.forall_mem_map.mpr fun ⟨vendor, funcs⟩ hmem => ?_
  rw [ExtTreeMap.mem_toList_iff_getElem?_eq_some] at hmem
  obtain ⟨⟨v, rfl⟩, -, hfuncs⟩ := physicalFuncs_spec hmem
  have hlength := hfuncs.trans List.count_le_length
  rw [List.length_map] at hlength
  have hkey : ValidKey ("accel.lunnova.dev/vendor." ++ v.slug ++ ".physical-count") := by
    cases v <;> decide
  exact .of_count hkey (hlength.trans_lt haccels)

lemma validEntry_sriov :
    ∀ e ∈ (match sriov sysfs accels with
      | none => []
      | some (total, used) => [("accel.lunnova.dev/sriov.total", toString total),
          ("accel.lunnova.dev/sriov.configured", toString used)]), ValidEntry e := by
  cases hsriov : sriov sysfs accels with
  | none => exact List.forall_mem_nil _
  | some e =>
      obtain ⟨htotal, hused⟩ := sriov_lt hsriov
      exact List.forall_mem_cons.mpr ⟨.of_count (by decide) (htotal.trans (by decide)),
        List.forall_mem_singleton.mpr (.of_count (by decide) (hused.trans (by decide)))⟩

lemma validEntry_lldp (h : Sound topology accels) (hlabelable : Labelable topology accels) :
    ∀ e ∈ lldpLabels topology.lldpNeighbors, ValidEntry e := by
  have hsub := firstOfChassis_sublist [] topology.lldpNeighbors
  rw [lldpLabels]
  split_ifs
  · exact List.forall_mem_nil _
  · refine List.forall_mem_append.mpr ⟨List.forall_mem_map.mpr fun n hn => ?_,
      List.forall_mem_singleton.mpr ?_⟩
    · have hone : ValidValue "1" := by decide
      exact ⟨(validKey_chassis_iff (h.received n (hsub.subset hn))).mpr (hlabelable.chassis n hn),
        hone⟩
    · exact .of_count (by decide) (hsub.length_le.trans_lt h.neighbors_lt)

/-- Every insertion has the form of a label. -/
lemma validEntry_of_labelable (h : Sound topology accels) (hl : Labelable topology accels) :
    ∀ e ∈ labelEntries sysfs topology accels, ValidEntry e := by
  have hoption (o : Option String) {key : String} (hkey : ValidKey key)
      (ho : ∀ v, o = some v → ValidValue v) :
      ∀ e ∈ (o.map fun v => (key, v)).toList, ValidEntry e := by
    cases o with
    | none => exact List.forall_mem_nil _
    | some v => exact List.forall_mem_singleton.mpr ⟨hkey, ho v rfl⟩
  rw [labelEntries_eq, List.forall_mem_flatMap]
  simp only [labelGroups, List.forall_mem_cons, List.not_mem_nil, false_imp_iff, implies_true,
    and_true]
  refine ⟨hoption _ (by decide) h.block, hoption _ (by decide) hl.rack, validEntry_domains h,
    .of_count (by decide) h.domains_lt, validEntry_counts h.accels_lt ?vendor,
    validEntry_counts h.accels_lt fun a ha => (validKey_model_iff a.model).mpr (hl.models a ha),
    validEntry_counts h.accels_lt ?memory, validEntry_physical h.accels_lt,
    .of_count (by decide) h.accels_lt, validEntry_sriov, ?rdma, ?devices, validEntry_lldp h hl⟩
  case vendor =>
    intro a _
    cases a.id.vendor <;> decide
  case memory =>
    intro a _
    cases a.memoryKind <;> decide
  case rdma =>
    split_ifs
    · exact List.forall_mem_singleton.mpr ⟨by decide, by decide⟩
    · exact List.forall_mem_nil _
  case devices =>
    split_ifs
    · exact List.forall_mem_nil _
    · exact List.forall_mem_singleton.mpr (.of_count (by decide) h.devices_lt)

/-- A label set that the API server takes. -/
def Acceptable (labels : StrMap) : Prop :=
  ∀ k v, labels[k]? = some v → ValidKey k ∧ ValidValue v

/-- What is inserted has a label. -/
lemma mem_labels {k v : String} (h : (k, v) ∈ labelEntries sysfs topology accels) :
    k ∈ (build sysfs topology accels).labels := by
  rw [build, ExtTreeMap.mem_ofList, List.contains_eq_mem, decide_eq_true_eq]
  exact List.mem_map.mpr ⟨_, h, rfl⟩

lemma Acceptable.validKey (h : Acceptable (build sysfs topology accels).labels)
    {k v : String} (hmem : (k, v) ∈ labelEntries sysfs topology accels) : ValidKey k := by
  have hk := mem_labels hmem
  rw [ExtTreeMap.mem_iff_isSome_getElem?, Option.isSome_iff_exists] at hk
  obtain ⟨w, hw⟩ := hk
  exact (h k w hw).1

lemma mem_labelEntries_of_model {e : String × String}
    (he : e ∈ emitCountLabels "accel.lunnova.dev/model" (countBy accels fun a => slugify a.model)) :
    e ∈ labelEntries sysfs topology accels := by
  rw [labelEntries]
  iterate 7 apply List.mem_append_left
  exact List.mem_append_right _ he

lemma mem_labelEntries_of_lldp {e : String × String}
    (he : e ∈ lldpLabels topology.lldpNeighbors) : e ∈ labelEntries sysfs topology accels :=
  List.mem_append_right _ he

/-- **A sound topology has an acceptable label set exactly if its words fit.** -/
lemma acceptable_iff (h : Sound topology accels) :
    Acceptable (build sysfs topology accels).labels ↔ Labelable topology accels := by
  constructor
  · intro hlabels
    refine ⟨fun v hv => ?_, fun a ha => ?_, fun n hn => ?_⟩
    · refine (hlabels "accel-topo.lunnova.dev/rack" v ?_).2
      rw [getElem?_labels_rack, hv]
    · obtain ⟨n, hn⟩ := exists_mem_emitCountLabels (fun a => slugify a.model)
        "accel.lunnova.dev/model" ha
      have hkey := hlabels.validKey (mem_labelEntries_of_model hn)
      exact (validKey_model_iff a.model).mp hkey
    · have hne : topology.lldpNeighbors ≠ [] :=
        List.ne_nil_of_mem ((firstOfChassis_sublist _ _).subset hn)
      have hmem : ("accel-topo.lunnova.dev/lldp.chassis." ++ n.rackSlug, "1")
          ∈ lldpLabels topology.lldpNeighbors := by
        rw [lldpLabels, if_neg (by simpa using hne)]
        exact List.mem_append_left _ (List.mem_map_of_mem hn)
      have hn := (firstOfChassis_sublist _ _).subset hn
      exact (validKey_chassis_iff (h.received n hn)).mp
        (hlabels.validKey (mem_labelEntries_of_lldp hmem))
  · intro hl k v hkv
    exact validEntry_of_labelable h hl _ (mem_of_getElem?_ofList hkv)

end Groups

/-! ### What a node publishes -/

section Discover

/-- The switches that a run of `discover` hears. -/
def heard (args : Resolved) (host : Host) : List LldpNeighbor :=
  if args.noLldp then [] else host.lldp args.lldpTimeoutSecs

/-- The labels of a node after `discover`. -/
def discoveredLabels (args : Resolved) (host : Host) (accels : List Accelerator) : StrMap :=
  (build host.sysfs (discover args host accels).1 (discover args host accels).2).labels

variable {args : Resolved} {host : Host} {accels : List Accelerator}

lemma sound_discover (hblock : ∀ v, args.block = some v → ValidValue v)
    (hreceived : ∀ n ∈ heard args host, Received n) (haccels : accels.length < 2 ^ 64)
    (hheard : (heard args host).length < 2 ^ 64) (hdevices : host.rdma.devices.length < 2 ^ 64) :
    Sound (discover args host accels).1 (discover args host accels).2 := by
  obtain ⟨hids, hdomains, hmembers⟩ := @domains_discover args host accels
  have hlength := congrArg List.length
    (@map_discover args host accels _ Accelerator.id fun _ _ => rfl)
  rw [List.length_map, List.length_map] at hlength
  exact {
    block := hblock
    ids := fun d hd => ⟨_, _, hids d hd⟩
    received := hreceived
    accels_lt := by omega
    domains_lt := by omega
    members_lt := by omega
    neighbors_lt := hheard.trans (by decide)
    devices_lt := hdevices.trans (by decide) }

/-- The first neighbour with its chassis id has a label of its own. -/
lemma mem_firstOfChassis {neighbors : List LldpNeighbor} {n : LldpNeighbor}
    (h : firstWith neighbors n.chassisId = some n) : n ∈ firstOfChassis [] neighbors := by
  have hseen (seen : List String) (hn : n.chassisId ∉ seen) :
      n ∈ firstOfChassis seen neighbors := by
    induction neighbors generalizing seen with
    | nil => exact absurd h (by simp [firstWith])
    | cons m neighbors ih =>
        rw [firstWith, List.find?_cons] at h
        rw [firstOfChassis]
        by_cases hm : m.chassisId = n.chassisId
        · simp only [hm, decide_true] at h
          obtain rfl := Option.some.inj h
          rw [if_neg hn]
          exact List.mem_cons_self
        · simp only [hm, decide_false] at h
          split_ifs
          · exact ih h seen hn
          · refine List.mem_cons_of_mem _ (ih h _ ?_)
            rw [List.mem_cons, not_or]
            exact ⟨Ne.symm hm, hn⟩
  exact hseen [] List.not_mem_nil

/-- A slug that fits into the key of a switch is a rack exactly if it starts well. -/
lemma validValue_rackSlug_iff {n : LldpNeighbor} (hn : Received n)
    (hlength : n.rackSlug.length ≤ 50) (hends : EndsAlnum n.rackSlug.toList) :
    ValidValue n.rackSlug ↔ StartsAlnum n.rackSlug.toList := by
  constructor
  · rintro (hempty | hname)
    · rw [hempty] at hends
      exact absurd hends (by decide)
    · exact hname.starts
  · intro hstarts
    refine Or.inr ⟨?_, hn.isNameChar_of_mem_rackSlug, hstarts, hends⟩
    rw [String.length_toList]
    omega

/-- **When the API server takes what a node publishes.** For any accelerators, any switches
whose frames were read, and a block and a rack that are label values, the label set is
acceptable, in whichever order the hash map of the rack inference is walked, exactly if

* the slug of every model has at most 51 characters;
* the slug of every chassis has at most 50 characters and ends in a letter or a digit;
* and, without a configured rack, the slug of a chassis that no other outnumbers starts with
  one as well. -/
theorem discover_acceptable_iff (hblock : ∀ v, args.block = some v → ValidValue v)
    (hrack : ∀ v, args.rack = some v → ValidValue v)
    (hreceived : ∀ n ∈ heard args host, Received n) (haccels : accels.length < 2 ^ 64)
    (hheard : (heard args host).length < 2 ^ 64) (hdevices : host.rdma.devices.length < 2 ^ 64) :
    (∀ order, Acceptable (discoveredLabels args { host with countsOrder := order } accels)) ↔
      (∀ a ∈ accels, (slugify a.model).length ≤ 51) ∧
      (∀ n ∈ firstOfChassis [] (heard args host),
        n.rackSlug.length ≤ 50 ∧ EndsAlnum n.rackSlug.toList) ∧
      (args.rack = none → ∀ n, Dominant (heard args host) n →
        firstWith (heard args host) n.chassisId = some n → StartsAlnum n.rackSlug.toList) := by
  have hsound (order : HashOrder (ℕ × LldpNeighbor)) :=
    @sound_discover args { host with countsOrder := order } accels hblock hreceived haccels hheard
      hdevices
  have hmodels (order : HashOrder (ℕ × LldpNeighbor)) :
      (∀ a ∈ (discover args { host with countsOrder := order } accels).2,
        (slugify a.model).length ≤ 51) ↔ ∀ a ∈ accels, (slugify a.model).length ≤ 51 := by
    have hmap := @map_discover args { host with countsOrder := order } accels _ Accelerator.model
      fun _ _ => rfl
    rw [← List.forall_mem_map (P := fun m => (slugify m).length ≤ 51), hmap, List.forall_mem_map]
  have hinferred (order : HashOrder (ℕ × LldpNeighbor)) :
      (discover args { host with countsOrder := order } accels).1.rack
        = args.rack.or (inferRackFromLldp order (heard args host)) := by
    show args.rack.or (if args.noLldp then none else inferRackFromLldp order (heard args host)) = _
    cases hno : args.noLldp with
    | false => rfl
    | true =>
        have hnothing : heard args host = [] := if_pos hno
        rw [inferRack_eq_none_iff.mpr hnothing, if_pos rfl]
  constructor
  · intro h
    have hl (order : HashOrder (ℕ × LldpNeighbor)) := (acceptable_iff (hsound order)).mp (h order)
    refine ⟨(hmodels HashOrder.id).mp (hl HashOrder.id).models, (hl HashOrder.id).chassis,
      fun hnone n hn hfirst => ?_⟩
    obtain ⟨order, horder⟩ := exists_inferRack hn hfirst
    have hvalid : ValidValue n.rackSlug := by
      refine (hl order).rack _ ?_
      rw [hinferred, hnone, horder]
      rfl
    obtain ⟨hlength, hends⟩ := (hl order).chassis n (mem_firstOfChassis hfirst)
    exact (validValue_rackSlug_iff (hreceived n hn.1) hlength hends).mp hvalid
  · rintro ⟨hmodel, hchassis, hstarts⟩ order
    refine (acceptable_iff (hsound order)).mpr
      ⟨fun v hv => ?_, (hmodels order).mpr hmodel, hchassis⟩
    rw [hinferred] at hv
    cases hargs : args.rack with
    | some r =>
        rw [hargs, Option.some_or] at hv
        exact hrack v (hargs.trans hv)
    | none =>
        rw [hargs, Option.none_or] at hv
        obtain ⟨n, hn, hfirst, rfl⟩ := inferRack_eq_some hv
        obtain ⟨hlength, hends⟩ := hchassis n (mem_firstOfChassis hfirst)
        exact (validValue_rackSlug_iff (hreceived n hn.1) hlength hends).mpr
          (hstarts hargs n hn hfirst)

/-- A neighbour is received if the records of a frame say it. -/
lemma received_of_records {n : LldpNeighbor} (rs : List Tlv.Record) (hrs : ∀ r ∈ rs, r.type ≠ 0)
    (h : (Lldp.Fields.assignAll ⟨none, none, none⟩ rs).neighbor n.interface = some n) :
    Received n := by
  refine ⟨Tlv.encodeAll rs ++ (Tlv.Record.mk 0 [] (by decide) (by decide)).encode ++ [], ?_⟩
  rw [Lldp.parseLldpdu_eq, Tlv.decode_encodeAll hrs rfl, h]

/-- A switch that gives its name. -/
def rackSwitch : LldpNeighbor := ⟨"eth0", "leaf1-dc1", .name, "1", none⟩

lemma received_rackSwitch : Received rackSwitch :=
  received_of_records [⟨1, 0x07 :: "leaf1-dc1".toUTF8.data.toList, by decide, by decide⟩,
    ⟨2, [0x07, 0x31], by decide, by decide⟩] (by decide) (by decide)

/-- A node with one card, without a configured rack, that hears this switch. -/
theorem discover_acceptable_single :
    Acceptable (discoveredLabels ⟨none, none, false, 35⟩
      { bareHost (fun _ => none) fun _ => 0 with lldp := fun _ => [rackSwitch] }
      [bareCard ⟨.amd, 0, "0000:01:00.0"⟩ ["card0"]]) := by
  refine (@discover_acceptable_iff ⟨none, none, false, 35⟩
    { bareHost (fun _ => none) fun _ => 0 with lldp := fun _ => [rackSwitch] }
    [bareCard ⟨.amd, 0, "0000:01:00.0"⟩ ["card0"]] (by simp) (by simp)
    (List.forall_mem_singleton.mpr received_rackSwitch) (by decide) (by decide) (by decide)).mpr
    ⟨by decide, by decide, fun _ n hn _ => ?_⟩ HashOrder.id
  rw [List.mem_singleton.mp hn.1]
  decide

/-- A switch that gives its name with a dot at the end, as a fully qualified one has it. -/
def dottedSwitch : LldpNeighbor := ⟨"eth0", "leaf1.dc1.", .name, "1", none⟩

lemma received_dottedSwitch : Received dottedSwitch :=
  received_of_records [⟨1, 0x07 :: "leaf1.dc1.".toUTF8.data.toList, by decide, by decide⟩,
    ⟨2, [0x07, 0x31], by decide, by decide⟩] (by decide) (by decide)

lemma mem_labelEntries_dottedSwitch {sysfs : Sysfs} {topology : NodeTopology}
    (h : topology.lldpNeighbors = [dottedSwitch]) :
    ("accel-topo.lunnova.dev/lldp.chassis.leaf1.dc1.", "1")
      ∈ labelEntries sysfs topology accels := by
  refine mem_labelEntries_of_lldp ?_
  rw [h]
  decide

/-- The chassis label of that switch has a key that ends in a dot, so the whole label set of a
node that hears it is refused. -/
theorem discover_refused :
    let host := { bareHost (fun _ => none) fun _ => 0 with lldp := fun _ => [dottedSwitch] }
    (∀ n ∈ heard ⟨none, none, false, 35⟩ host, Received n) ∧
      "accel-topo.lunnova.dev/lldp.chassis.leaf1.dc1."
        ∈ discoveredLabels ⟨none, none, false, 35⟩ host [] ∧
      ¬ ValidKey "accel-topo.lunnova.dev/lldp.chassis.leaf1.dc1." ∧
      ¬ Acceptable (discoveredLabels ⟨none, none, false, 35⟩ host []) := by
  intro host
  have hkey : ¬ ValidKey "accel-topo.lunnova.dev/lldp.chassis.leaf1.dc1." := by decide
  refine ⟨List.forall_mem_singleton.mpr received_dottedSwitch, ?_, hkey, ?_⟩
  · exact mem_labels (mem_labelEntries_dottedSwitch rfl)
  · intro h
    exact hkey (Acceptable.validKey h (mem_labelEntries_dottedSwitch rfl))

end Discover

end Accelrd.Topology
