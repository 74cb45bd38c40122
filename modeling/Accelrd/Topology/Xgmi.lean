import Mathlib.Tactic
import Accelrd.Topology.Discover

/-!
`build_amd_xgmi_groups` of `src/topology/discover.rs`: how large its groups are.

* `lists_iff`: with different addresses, a card lists another if it lists its address.
* `two_le_length_group_iff`: a group has two members, except that of a card with a link to
  itself alone.
* `xgmi_multiMember_iff`: the same for the domains of `discover`.
-/

namespace Accelrd.Topology

open Std Sensors Insertions Relation

/-! ### Addresses -/

/-- A card lists the address of another. -/
def ListsAddress (sysfs : Sysfs) (a b : Accelerator) : Prop :=
  b.id.pciAddr ∈ readXgmiPeers sysfs a.deviceDir

instance (sysfs : Sysfs) (a b : Accelerator) : Decidable (ListsAddress sysfs a b) :=
  inferInstanceAs (Decidable (_ ∈ _))

/-- The only link that a card has is to itself: it lists its own address, and there is no other
AMD card that it lists or that lists it. -/
def LinkedToItself (sysfs : Sysfs) (accels : List Accelerator) (a : Accelerator) : Prop :=
  ListsAddress sysfs a a ∧
    ∀ b ∈ amdCards accels, b ≠ a → ¬ ListsAddress sysfs a b ∧ ¬ ListsAddress sysfs b a

section Addresses

variable {sysfs : Sysfs} {accels : List Accelerator}

lemma mem_of_mem_amdCards {a : Accelerator} (h : a ∈ amdCards accels) : a ∈ accels :=
  List.mem_of_mem_filter h

/-- An address resolves to the card that has it. -/
lemma resolve_eq_some_iff (haddrs : (accels.map fun a => a.id.pciAddr).Nodup) {addr : String}
    {b : Accelerator} :
    resolve (amdCards accels) addr = some b ↔ b ∈ amdCards accels ∧ b.id.pciAddr = addr := by
  constructor
  · intro h
    exact ⟨List.mem_of_find?_eq_some h, by simpa using List.find?_some h⟩
  · rintro ⟨hb, rfl⟩
    cases hfind : resolve (amdCards accels) b.id.pciAddr with
    | none => exact absurd (decide_eq_true rfl) (List.find?_eq_none.mp hfind b hb)
    | some c =>
        have hc : c.id.pciAddr = b.id.pciAddr := by simpa using List.find?_some hfind
        have hmem := mem_of_mem_amdCards (List.mem_of_find?_eq_some hfind)
        rw [List.inj_on_of_nodup_map haddrs hmem (mem_of_mem_amdCards hb) hc]

/-- Cards with a link are AMD cards. -/
lemma exists_amd_of_symmGen {a b : AcceleratorId} (h : SymmGen (Lists sysfs accels) a b) :
    ∃ x ∈ amdCards accels, x.id = a := by
  rcases h with ⟨x, hx, hxa, -⟩ | ⟨x, -, -, addr, -, y, hy, hya⟩
  · exact ⟨x, hx, hxa⟩
  · exact ⟨y, List.mem_of_find?_eq_some hy, hya⟩

variable (hids : (accels.map Accelerator.id).Nodup)
  (haddrs : (accels.map fun a => a.id.pciAddr).Nodup)

include hids haddrs

/-- **Links are entries of the lists.** -/
lemma lists_iff {a b : Accelerator} (ha : a ∈ amdCards accels) (hb : b ∈ amdCards accels) :
    Lists sysfs accels a.id b.id ↔ ListsAddress sysfs a b := by
  constructor
  · rintro ⟨x, hx, hxa, addr, haddr, y, hy, hyb⟩
    obtain ⟨hyamd, rfl⟩ := (resolve_eq_some_iff haddrs).mp hy
    rw [ListsAddress, ← hyb]
    rwa [List.inj_on_of_nodup_map hids (mem_of_mem_amdCards hx) (mem_of_mem_amdCards ha) hxa]
      at haddr
  · intro h
    exact ⟨a, ha, rfl, _, h, b, (resolve_eq_some_iff haddrs).mpr ⟨hb, rfl⟩, rfl⟩

/-- A card is linked to itself alone if all its links lead to itself, and there is one. -/
lemma linkedToItself_iff {a : Accelerator} (ha : a ∈ amdCards accels) :
    LinkedToItself sysfs accels a ↔ (∃ b, SymmGen (Lists sysfs accels) a.id b) ∧
      ∀ b, SymmGen (Lists sysfs accels) a.id b → b = a.id := by
  constructor
  · rintro ⟨hself, hothers⟩
    refine ⟨⟨a.id, Or.inl ((lists_iff hids haddrs ha ha).mpr hself)⟩, fun b hb => ?_⟩
    obtain ⟨y, hy, rfl⟩ := exists_amd_of_symmGen hb.symm
    by_contra hne
    have hnot := hothers y hy fun heq => hne (congrArg Accelerator.id heq)
    rcases hb with hb | hb
    · exact hnot.1 ((lists_iff hids haddrs ha hy).mp hb)
    · exact hnot.2 ((lists_iff hids haddrs hy ha).mp hb)
  · rintro ⟨⟨b, hb⟩, hall⟩
    have hself : Lists sysfs accels a.id a.id := by
      rw [hall b hb] at hb
      exact hb.elim id id
    refine ⟨(lists_iff hids haddrs ha ha).mp hself, fun c hc hne => ?_⟩
    have hnot : ¬ SymmGen (Lists sysfs accels) a.id c.id := fun hlink =>
      hne (List.inj_on_of_nodup_map hids (mem_of_mem_amdCards hc) (mem_of_mem_amdCards ha)
        (hall _ hlink))
    exact ⟨fun h => hnot (Or.inl ((lists_iff hids haddrs ha hc).mpr h)),
      fun h => hnot (Or.inr ((lists_iff hids haddrs hc ha).mpr h))⟩

/-! ### Groups -/

variable {order : HashOrder AcceleratorId}

/-- The group of a card that is linked to itself alone has no other member. -/
lemma exists_group_of_linkedToItself {a : Accelerator} (ha : a ∈ amdCards accels)
    (h : LinkedToItself sysfs accels a) :
    ∃ g ∈ buildAmdXgmiGroups sysfs order accels, g.length ≤ 1 := by
  obtain ⟨⟨b, hb⟩, hall⟩ := (linkedToItself_iff hids haddrs ha).mp h
  obtain ⟨g, hg, hag⟩ := List.mem_flatten.mp (@mem_flatten_groups _ _ order _ _ hb)
  obtain ⟨start, -, hmem⟩ := mem_group_iff hg
  have hsub : g ⊆ [a.id] := by
    intro x hx
    have hconnected := ((hmem a.id).mp hag).symm.trans ((hmem x).mp hx)
    exact List.mem_singleton.mpr ((connected_iff_eq hall).mp hconnected)
  have hnodup : g.Nodup := (List.nodup_flatten.mp nodup_flatten_groups).1 g hg
  exact ⟨g, hg, (List.subperm_of_subset hnodup hsub).length_le⟩

/-- A group without a second member is that of such a card. -/
lemma exists_linkedToItself_of_group {g : List AcceleratorId}
    (hg : g ∈ buildAmdXgmiGroups sysfs order accels) (hlength : g.length ≤ 1) :
    ∃ a ∈ amdCards accels, LinkedToItself sysfs accels a := by
  obtain ⟨start, ⟨b, hb⟩, hmem⟩ := mem_group_iff hg
  obtain ⟨a, ha, rfl⟩ := exists_amd_of_symmGen hb
  have hstart : a.id ∈ g := (hmem a.id).mpr (.refl _)
  refine ⟨a, ha, (linkedToItself_iff hids haddrs ha).mpr ⟨⟨b, hb⟩, fun c hc => ?_⟩⟩
  have hcg : c ∈ g := (hmem c).mpr (reach_graph_iff.mp (.single (link_graph_iff.mpr hc)))
  match g, hlength with
  | [x], _ => exact (List.mem_singleton.mp hcg).trans (List.mem_singleton.mp hstart).symm

/-- **When every group has two members**: when no card is linked to itself alone. -/
theorem two_le_length_group_iff :
    (∀ g ∈ buildAmdXgmiGroups sysfs order accels, 2 ≤ g.length) ↔
      ∀ a ∈ amdCards accels, ¬ LinkedToItself sysfs accels a := by
  constructor
  · intro h a ha hself
    obtain ⟨g, hg, hlength⟩ := @exists_group_of_linkedToItself _ _ hids haddrs order a ha hself
    have := h g hg
    omega
  · intro h g hg
    by_contra hlength
    obtain ⟨a, ha, hself⟩ := exists_linkedToItself_of_group hids haddrs hg (by omega)
    exact h a ha hself

end Addresses

/-! ### Domains -/

section Domains

variable {args : Resolved} {host : Host} {accels : List Accelerator}

/-- The domains of kind `XGmi` are the groups. -/
lemma forall_xgmi_iff (hids : (accels.map Accelerator.id).Nodup)
    {P : List AcceleratorId → Prop} :
    (∀ d ∈ (discover args host accels).1.fabricDomains, d.kind = .xgmi → P d.memberAccelerators) ↔
      ∀ g ∈ groupsOf host accels, P g := by
  rw [fabricDomains_discover args host hids, List.forall_mem_append, List.forall_mem_map,
    List.forall_mem_map]
  constructor
  · intro h g hg
    exact h.1 g hg rfl
  · intro h
    exact ⟨fun g hg _ => h g hg, fun a _ hkind => FabricKind.noConfusion hkind⟩

/-- **When an `XGmi` domain is a real link**: every group has two members, and so has every
domain of this kind, exactly if no AMD card has a link to itself and no other. -/
theorem xgmi_multiMember_iff (hids : (accels.map Accelerator.id).Nodup)
    (haddrs : (accels.map fun a => a.id.pciAddr).Nodup) :
    ((∀ g ∈ buildAmdXgmiGroups host.sysfs host.adjacencyOrder accels, 2 ≤ g.length) ∧
      ∀ d ∈ (discover args host accels).1.fabricDomains, d.kind = .xgmi →
        2 ≤ d.memberAccelerators.length) ↔
      ∀ a ∈ amdCards accels, ¬ LinkedToItself host.sysfs accels a := by
  have hgroups := @two_le_length_group_iff host.sysfs accels hids haddrs host.adjacencyOrder
  have hdomains := @forall_xgmi_iff args host accels hids fun members => 2 ≤ members.length
  rw [hdomains, groupsOf, and_self]
  exact hgroups

/-- A card whose driver lists the address of the card itself. -/
def selfListing : Host :=
  bareHost (fun path => if path = ["first", "xgmi_peer_links"] then some "0000:01:00.0\n" else none)
    fun _ => 0

lemma linkedToItself_selfListing :
    LinkedToItself selfListing.sysfs [bareCard ⟨.amd, 0, "0000:01:00.0"⟩ ["first"]]
      (bareCard ⟨.amd, 0, "0000:01:00.0"⟩ ["first"]) := by
  refine ⟨by decide, fun b hb hne => ?_⟩
  exact absurd (List.mem_singleton.mp (mem_of_mem_amdCards hb)) hne

/-- It gets a domain of kind `XGmi` of its own. -/
theorem discover_xgmi_lone :
    let first := bareCard ⟨.amd, 0, "0000:01:00.0"⟩ ["first"]
    (∃ g ∈ buildAmdXgmiGroups selfListing.sysfs selfListing.adjacencyOrder [first],
      g.length ≤ 1) ∧
    ∃ d ∈ (discover ⟨none, none, true, 35⟩ selfListing [first]).1.fabricDomains,
      d.kind = .xgmi ∧ d.memberAccelerators.length ≤ 1 := by
  intro first
  obtain ⟨g, hg, hlength⟩ := @exists_group_of_linkedToItself selfListing.sysfs [first] (by decide)
    (by decide) selfListing.adjacencyOrder first
    (List.mem_filter.mpr ⟨List.mem_cons_self, by decide⟩) linkedToItself_selfListing
  refine ⟨⟨g, hg, hlength⟩, ⟨stableDomainId selfListing.hash g, .xgmi, g, none⟩, ?_, rfl, hlength⟩
  rw [fabricDomains_discover ⟨none, none, true, 35⟩ selfListing (by decide)]
  exact List.mem_append_left _ (List.mem_map_of_mem hg)

/-- Two cards that list each other. -/
theorem xgmi_multiMember_pair :
    let first := bareCard ⟨.amd, 0, "0000:01:00.0"⟩ ["first"]
    let second := bareCard ⟨.amd, 1, "0000:02:00.0"⟩ ["second"]
    let host := bareHost (fun path => if path = ["first", "xgmi_peer_links"] then
      some "0000:01:00.0 0000:02:00.0\n" else none) fun _ => 0
    ∀ d ∈ (discover ⟨none, none, true, 35⟩ host [first, second]).1.fabricDomains,
      d.kind = .xgmi → 2 ≤ d.memberAccelerators.length := by
  intro first second host
  have hfirst : first ∈ amdCards [first, second] :=
    List.mem_filter.mpr ⟨List.mem_cons_self, by decide⟩
  have hsecond : second ∈ amdCards [first, second] :=
    List.mem_filter.mpr ⟨List.mem_cons_of_mem _ List.mem_cons_self, by decide⟩
  have hne : second ≠ first := fun h => absurd (congrArg Accelerator.id h) (by decide)
  refine ((@xgmi_multiMember_iff ⟨none, none, true, 35⟩ host [first, second] (by decide)
    (by decide)).mpr ?_).2
  intro a ha
  rcases List.mem_pair.mp (mem_of_mem_amdCards ha) with rfl | rfl
  · exact fun h => (h.2 second hsecond hne).1 (by decide)
  · exact fun h => (h.2 first hfirst hne.symm).2 (by decide)

end Domains

end Accelrd.Topology
