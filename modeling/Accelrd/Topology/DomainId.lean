import Mathlib.Tactic
import Accelrd.Topology.Discover
import Accelrd.Topology.Published

/-!
How far the id of a fabric domain tells it from the others of its node.

* `stableDomainId_eq_iff`: an id is as good as the low half of the hash of the addresses.
* `sorted_addresses`: the addresses of a domain are those of the cards connected to one of
  its members.
* `length_domainKeys`: the label set has one key for each id, not for each domain.
* `distinguished_iff`: when ids, domains and labels agree in number.
-/

namespace Accelrd.Topology

open Std Sensors Insertions

/-! ### Ids -/

/-- What is kept of a hash. -/
def lowHalf (n : UInt64) : UInt64 := n &&& 0xffffffff

/-- The addresses that are hashed. -/
def sortedAddresses (members : List AcceleratorId) : List String :=
  (members.map AcceleratorId.pciAddr).insertionSort (· ≤ ·)

lemma stableDomainId_eq_iff {hash : List String → UInt64} {l m : List AcceleratorId} :
    stableDomainId hash l = stableDomainId hash m ↔
      lowHalf (hash (sortedAddresses l)) = lowHalf (hash (sortedAddresses m)) := by
  constructor
  · intro h
    rw [stableDomainId, stableDomainId, ← String.toList_inj] at h
    simp only [String.toList_append, String.toList_ofList] at h
    have hdigits := List.append_cancel_left h
    exact UInt64.toNat_inj.mp (Text.toDigits_injective (by decide) (by decide) hdigits)
  · intro h
    have h : hash ((l.map AcceleratorId.pciAddr).insertionSort (· ≤ ·)) &&& 0xffffffff
        = hash ((m.map AcceleratorId.pciAddr).insertionSort (· ≤ ·)) &&& 0xffffffff := h
    rw [stableDomainId, stableDomainId, h]

lemma sortedAddresses_eq_of_perm {l m : List AcceleratorId} (h : l.Perm m) :
    sortedAddresses l = sortedAddresses m :=
  ((List.perm_insertionSort _ _).trans ((h.map _).trans
    (List.perm_insertionSort _ _).symm)).eq_of_pairwise' (List.pairwise_insertionSort _ _)
    (List.pairwise_insertionSort _ _)

section Classes

open Classical in
/-- The addresses of the cards that a card is connected to, sorted. -/
noncomputable def addressesFrom (sysfs : Sysfs) (accels : List Accelerator) (a : Accelerator) :
    List String :=
  sortedAddresses ((accels.map Accelerator.id).filter fun x => Connected sysfs accels a.id x)

variable {host : Host} {accels : List Accelerator} {domains : List FabricDomain}

/-- The addresses of a domain. -/
lemma Placement.sorted_addresses (h : Placement host accels domains)
    (hids : (accels.map Accelerator.id).Nodup) {d : FabricDomain} (hd : d ∈ domains)
    {a : Accelerator} (ha : a ∈ accels) (had : a.id ∈ d.memberAccelerators) :
    sortedAddresses d.memberAccelerators = addressesFrom host.sysfs accels a := by
  classical
  obtain ⟨c, -, -, hmem⟩ := h.component d hd
  refine sortedAddresses_eq_of_perm
    ((List.perm_ext_iff_of_nodup ?_ (hids.filter _)).mpr fun x => ?_)
  · exact (List.nodup_flatMap.mp h.nodup).1 d hd
  · have hac := (hmem a.id).mp had
    rw [List.mem_filter, decide_eq_true_eq, hmem x]
    constructor
    · intro hcx
      have hax := hac.symm.trans hcx
      exact ⟨hax.mem (List.mem_map_of_mem ha), hax⟩
    · rintro ⟨-, hax⟩
      exact hac.trans hax

/-- Domains with the same members are the same. -/
lemma Placement.eq_of_mem (h : Placement host accels domains) {d e : FabricDomain}
    (hd : d ∈ domains) (he : e ∈ domains) {x : AcceleratorId} (hxd : x ∈ d.memberAccelerators)
    (hxe : x ∈ e.memberAccelerators) : d = e := by
  have hfilter := filter_mem_eq_singleton h.nodup hd hxd
  rw [filter_mem_eq_singleton h.nodup he hxe] at hfilter
  exact (List.singleton_inj.mp hfilter).symm

/-- Every domain has a placed card. -/
lemma Placement.exists_mem (h : Placement host accels domains) {d : FabricDomain}
    (hd : d ∈ domains) :
    ∃ a ∈ accels, Placed host.sysfs accels a ∧ a.id ∈ d.memberAccelerators := by
  obtain ⟨a, ha, hplaced, hmem⟩ := h.component d hd
  exact ⟨a, ha, hplaced, (hmem a.id).mpr (.refl _)⟩

lemma Placement.same_members_iff (h : Placement host accels domains) {d e : FabricDomain}
    (hd : d ∈ domains) (he : e ∈ domains) :
    (∀ x, x ∈ d.memberAccelerators ↔ x ∈ e.memberAccelerators) ↔ d = e := by
  constructor
  · intro hsame
    obtain ⟨a, -, -, had⟩ := h.exists_mem hd
    exact h.eq_of_mem hd he had ((hsame a.id).mp had)
  · rintro rfl x
    exact Iff.rfl

lemma Placement.domains_nodup (h : Placement host accels domains) : domains.Nodup := by
  refine (List.nodup_flatMap.mp h.nodup).2.imp_of_mem fun {d e} hd _ hdisjoint heq => ?_
  obtain ⟨a, -, -, had⟩ := h.exists_mem hd
  exact hdisjoint had (heq ▸ had)

/-- Connected cards are connected to the same cards. -/
lemma addressesFrom_congr {a b : Accelerator} (h : Connected host.sysfs accels a.id b.id) :
    addressesFrom host.sysfs accels a = addressesFrom host.sysfs accels b := by
  classical
  refine congrArg sortedAddresses (List.filter_congr fun x _ => ?_)
  exact decide_eq_decide.mpr ⟨fun hax => h.symm.trans hax, fun hbx => h.trans hbx⟩

/-- Cards that are not connected have different addresses. -/
def AddressesDiffer (sysfs : Sysfs) (accels : List Accelerator) : Prop :=
  ∀ a ∈ accels, ∀ b ∈ accels, Placed sysfs accels a → Placed sysfs accels b →
    ¬ Connected sysfs accels a.id b.id → addressesFrom sysfs accels a ≠ addressesFrom sysfs accels b

/-- The low halves of the hashes of the addresses do not collide. -/
def NoCollision (hash : List String → UInt64) (sysfs : Sysfs) (accels : List Accelerator) : Prop :=
  ∀ a ∈ accels, ∀ b ∈ accels, Placed sysfs accels a → Placed sysfs accels b →
    addressesFrom sysfs accels a ≠ addressesFrom sysfs accels b →
      lowHalf (hash (addressesFrom sysfs accels a)) ≠ lowHalf (hash (addressesFrom sysfs accels b))

/-- **Ids tell domains apart if and only if the addresses and their hashes do.** -/
lemma Placement.id_injOn_iff (h : Placement host accels domains)
    (hids : (accels.map Accelerator.id).Nodup) :
    (∀ d ∈ domains, ∀ e ∈ domains, d.id = e.id → d = e) ↔
      AddressesDiffer host.sysfs accels ∧ NoCollision host.hash host.sysfs accels := by
  constructor
  · intro hinj
    have hhash : ∀ a ∈ accels, ∀ b ∈ accels, Placed host.sysfs accels a →
        Placed host.sysfs accels b → ¬ Connected host.sysfs accels a.id b.id →
          lowHalf (host.hash (addressesFrom host.sysfs accels a))
            ≠ lowHalf (host.hash (addressesFrom host.sysfs accels b)) := by
      intro a ha b hb haplaced hbplaced hab heq
      obtain ⟨d, hd, had⟩ := h.cover a ha haplaced
      obtain ⟨e, he, hbe⟩ := h.cover b hb hbplaced
      have hde : d = e := by
        refine hinj d hd e he ?_
        rw [h.id_eq d hd, h.id_eq e he, stableDomainId_eq_iff, h.sorted_addresses hids hd ha had,
          h.sorted_addresses hids he hb hbe]
        exact heq
      exact hab ((h.same_domain_iff ha haplaced b.id).mp ⟨d, hd, had, hde ▸ hbe⟩)
    refine ⟨fun a ha b hb haplaced hbplaced hab heq => ?_,
      fun a ha b hb haplaced hbplaced hne => ?_⟩
    · exact hhash a ha b hb haplaced hbplaced hab (by rw [heq])
    · exact hhash a ha b hb haplaced hbplaced fun hab => hne (addressesFrom_congr hab)
  · rintro ⟨haddresses, hhash⟩ d hd e he heq
    obtain ⟨a, ha, haplaced, had⟩ := h.exists_mem hd
    obtain ⟨b, hb, hbplaced, hbe⟩ := h.exists_mem he
    rw [h.id_eq d hd, h.id_eq e he, stableDomainId_eq_iff, h.sorted_addresses hids hd ha had,
      h.sorted_addresses hids he hb hbe] at heq
    have hab : Connected host.sysfs accels a.id b.id := by_contra fun hab =>
      hhash a ha b hb haplaced hbplaced (haddresses a ha b hb haplaced hbplaced hab) heq
    obtain ⟨c, hc, hac, hbc⟩ := (h.same_domain_iff ha haplaced b.id).mpr hab
    exact (h.eq_of_mem hd hc had hac).trans (h.eq_of_mem he hc hbe hbc).symm

end Classes

/-! ### Labels -/

section Labels

lemma mem_domainCounts {domains : List FabricDomain} {id : String} :
    id ∈ domainCounts domains ↔ id ∈ domains.map FabricDomain.id := by
  have hkeys : (domains.map fun d => (d.id, d.memberAccelerators.length)).map Prod.fst
      = domains.map FabricDomain.id := List.map_map
  rw [ExtTreeMap.mem_iff_isSome_getElem?, domainCounts_eq, getElem?_foldl_addCount, ← hkeys]
  split_ifs with hnil
  · simpa using Rollup.valuesOf_eq_nil_iff.mp hnil
  · simpa using not_not.mp (Rollup.valuesOf_eq_nil_iff.not.mp hnil)

variable (sysfs : Sysfs) (topology : NodeTopology) (accels : List Accelerator)

/-- The keys of the labels about single domains. -/
def domainKeys : List String :=
  (build sysfs topology accels).labels.keys.filter
    (Text.startsWith · "accel-topo.lunnova.dev/fabric-domain.")

/-- The labels about single domains are those of the ids. -/
lemma mem_domainKeys {k : String} :
    k ∈ domainKeys sysfs topology accels ↔
      ∃ id ∈ topology.fabricDomains.map FabricDomain.id,
        k = "accel-topo.lunnova.dev/fabric-domain." ++ id := by
  have hlookup (id : String) :
      "accel-topo.lunnova.dev/fabric-domain." ++ id ∈ (build sysfs topology accels).labels ↔
        id ∈ topology.fabricDomains.map FabricDomain.id := by
    rw [← mem_domainCounts, ExtTreeMap.mem_iff_isSome_getElem?, ExtTreeMap.mem_iff_isSome_getElem?,
      getElem?_labels_fabricDomain, Option.isSome_map]
  rw [domainKeys, List.mem_filter, ExtTreeMap.mem_keys]
  constructor
  · rintro ⟨hmem, hstarts⟩
    obtain ⟨id, rfl⟩ := Text.exists_eq_append hstarts
    exact ⟨id, (hlookup id).mp hmem, rfl⟩
  · rintro ⟨id, hid, rfl⟩
    exact ⟨(hlookup id).mpr hid, Text.startsWith_append _ _⟩

/-- **The label set has one key for each id.** -/
lemma length_domainKeys :
    (domainKeys sysfs topology accels).length
      = (topology.fabricDomains.map FabricDomain.id).dedup.length := by
  have hinj : Function.Injective fun id => "accel-topo.lunnova.dev/fabric-domain." ++ id :=
    fun a b h => by simpa using h
  have hperm : (domainKeys sysfs topology accels).Perm
      ((topology.fabricDomains.map FabricDomain.id).dedup.map fun id =>
        "accel-topo.lunnova.dev/fabric-domain." ++ id) := by
    refine (List.perm_ext_iff_of_nodup (ExtTreeMap.nodup_keys.filter _)
      ((List.nodup_dedup _).map hinj)).mpr fun k => ?_
    refine (mem_domainKeys sysfs topology accels).trans ?_
    simp only [List.mem_map, List.mem_dedup, eq_comm]
  rw [hperm.length_eq, List.length_map]

end Labels

/-! ### What the ids are good for -/

section Distinguished

/-- The ids of a topology name its domains by their members, and the labels are as many as
the label that counts the domains says. -/
def Distinguished (sysfs : Sysfs) (topology : NodeTopology) (accels : List Accelerator) : Prop :=
  (∀ d ∈ topology.fabricDomains, ∀ e ∈ topology.fabricDomains,
    d.id = e.id ↔ ∀ x, x ∈ d.memberAccelerators ↔ x ∈ e.memberAccelerators) ∧
  (build sysfs topology accels).labels["accel-topo.lunnova.dev/fabric-domains-count"]?
    = some (toString (domainKeys sysfs topology accels).length)

variable {host : Host} {accels : List Accelerator}

lemma Placement.distinguished_iff {topology : NodeTopology}
    (h : Placement host accels topology.fabricDomains) (sysfs : Sysfs)
    (placed : List Accelerator) :
    Distinguished sysfs topology placed ↔
      ∀ d ∈ topology.fabricDomains, ∀ e ∈ topology.fabricDomains, d.id = e.id → d = e := by
  have hmembers : (∀ d ∈ topology.fabricDomains, ∀ e ∈ topology.fabricDomains,
      d.id = e.id ↔ ∀ x, x ∈ d.memberAccelerators ↔ x ∈ e.memberAccelerators) ↔
      ∀ d ∈ topology.fabricDomains, ∀ e ∈ topology.fabricDomains, d.id = e.id → d = e := by
    constructor
    · intro hiff d hd e he heq
      exact (h.same_members_iff hd he).mp ((hiff d hd e he).mp heq)
    · intro hinj d hd e he
      refine ⟨fun heq => (h.same_members_iff hd he).mpr (hinj d hd e he heq), fun hsame => ?_⟩
      rw [(h.same_members_iff hd he).mp hsame]
  rw [Distinguished, hmembers, getElem?_labels_fabricDomainsCount, length_domainKeys]
  refine and_iff_left_of_imp fun hinj => ?_
  -- ids that tell the domains apart are all different
  have hnodup : (topology.fabricDomains.map FabricDomain.id).Nodup :=
    h.domains_nodup.map_on hinj
  rw [hnodup.dedup, List.length_map]

/-- **When domain ids identify domains.** On any node the ids that `discover` gives to the
fabric domains are equal for equal member sets only, and label and count agree, exactly if cards
that are not connected have different address lists and the low 32 bits of the hashes of these
lists do not collide. -/
theorem discover_distinguished_iff (args : Resolved)
    (hids : (accels.map Accelerator.id).Nodup) :
    Distinguished host.sysfs (discover args host accels).1 (discover args host accels).2 ↔
      AddressesDiffer host.sysfs accels ∧ NoCollision host.hash host.sysfs accels := by
  have h : Placement host accels (discover args host accels).1.fabricDomains :=
    discover_placement args hids
  rw [h.distinguished_iff, h.id_injOn_iff hids]

/-- A hash that reads the addresses as one number. -/
def polynomialHash (addresses : List String) : UInt64 :=
  (addresses.flatMap String.toList).foldl (fun h c => 31 * h + UInt64.ofNat c.toNat) 7

/-- The ids of two cards with different addresses are good for what they are meant for. -/
theorem discover_distinguished_two :
    let host := bareHost (fun _ => none) polynomialHash
    let first := bareCard ⟨.nvidia, 0, "0000:01:00.0"⟩ ["card0"]
    let second := bareCard ⟨.nvidia, 1, "0000:02:00.0"⟩ ["card1"]
    Distinguished host.sysfs (discover ⟨none, none, true, 35⟩ host [first, second]).1
      (discover ⟨none, none, true, 35⟩ host [first, second]).2 := by
  intro host first second
  have hids : ([first, second].map Accelerator.id).Nodup := by decide
  have h := @discover_placement ⟨none, none, true, 35⟩ host [first, second] hids
  rw [fabricDomains_of_no_amd ⟨none, none, true, 35⟩ hids rfl] at h
  -- each card is alone in its domain
  have haddresses : ∀ a ∈ [first, second],
      [a.id.pciAddr] = addressesFrom host.sysfs [first, second] a := by
    intro a ha
    refine h.sorted_addresses hids (List.mem_map.mpr ⟨a, List.mem_filter.mpr ⟨ha, ?_⟩, rfl⟩) ha
      (List.mem_singleton_self a.id)
    revert a
    decide
  have hdiffer : ∀ a ∈ [first, second], ∀ b ∈ [first, second],
      [a.id.pciAddr] = [b.id.pciAddr] → a.id = b.id := by decide
  have hhash : ∀ a ∈ [first, second], ∀ b ∈ [first, second], [a.id.pciAddr] ≠ [b.id.pciAddr] →
      lowHalf (polynomialHash [a.id.pciAddr]) ≠ lowHalf (polynomialHash [b.id.pciAddr]) := by decide
  refine (discover_distinguished_iff ⟨none, none, true, 35⟩ hids).mpr ⟨?_, ?_⟩
  · intro a ha b hb _ _ hab
    rw [← haddresses a ha, ← haddresses b hb]
    exact fun heq => hab (hdiffer a ha b hb heq ▸ .refl _)
  · intro a ha b hb _ _ hne
    rw [← haddresses a ha, ← haddresses b hb] at hne ⊢
    exact hhash a ha b hb hne

/-- Two cards whose directory has no PCI name have the same address list, which no hash can
tell apart: two domains, one id, one label, and a count of two. -/
theorem discover_merges_domains :
    let host := bareHost (fun _ => none) fun _ => 0
    let first := bareCard ⟨.nvidia, 0, ""⟩ ["card0"]
    let second := bareCard ⟨.nvidia, 1, ""⟩ ["card1"]
    let topology := (discover ⟨none, none, true, 35⟩ host [first, second]).1
    let placed := (discover ⟨none, none, true, 35⟩ host [first, second]).2
    ([first, second].map Accelerator.id).Nodup ∧
      (∀ d ∈ topology.fabricDomains, ∀ e ∈ topology.fabricDomains,
        host.hash (sortedAddresses d.memberAccelerators)
            = host.hash (sortedAddresses e.memberAccelerators) →
          sortedAddresses d.memberAccelerators = sortedAddresses e.memberAccelerators) ∧
      (∃ d ∈ topology.fabricDomains, ∃ e ∈ topology.fabricDomains, d.id = e.id ∧
        first.id ∈ d.memberAccelerators ∧ first.id ∉ e.memberAccelerators) ∧
      (domainKeys host.sysfs topology placed).length = 1 ∧
      (build host.sysfs topology placed).labels["accel-topo.lunnova.dev/fabric-domains-count"]?
        = some "2" := by
  intro host first second topology placed
  have hids : ([first, second].map Accelerator.id).Nodup := by decide
  have hdomains : topology.fabricDomains
      = [⟨"fab-0", .pcie, [first.id], none⟩, ⟨"fab-0", .pcie, [second.id], none⟩] := by
    have hfirst : stableDomainId host.hash [first.id] = "fab-0" := by decide
    have hsecond : stableDomainId host.hash [second.id] = "fab-0" := by decide
    have hsingle : topology.fabricDomains = [⟨stableDomainId host.hash [first.id], _, _, _⟩,
        ⟨stableDomainId host.hash [second.id], _, _, _⟩] :=
      fabricDomains_of_no_amd ⟨none, none, true, 35⟩ hids rfl
    rw [hsingle, hfirst, hsecond]
  refine ⟨hids, ?_, ?_, ?_, ?_⟩
  · rw [hdomains]
    simp only [List.forall_mem_cons]
    decide
  · rw [hdomains]
    exact ⟨_, List.mem_cons_self, _, List.mem_cons_of_mem _ List.mem_cons_self, rfl,
      List.mem_singleton_self _, by decide⟩
  · rw [length_domainKeys, hdomains]
    rfl
  · rw [getElem?_labels_fabricDomainsCount, hdomains]
    decide

end Distinguished

end Accelrd.Topology
