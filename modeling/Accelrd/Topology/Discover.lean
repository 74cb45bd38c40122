import Mathlib.Tactic
import Accelrd.Library.Components
import Accelrd.Library.Insertions
import Accelrd.Topology.Basic

/-!
`src/topology/discover.rs`: what a node finds out about its place in the cluster.

* `buildAmdXgmiGroups`: the components of the cards that list each other.
* `discover`: the fabric domains, the switches, and the rack they stand for.
* `Connected`: the equivalence that the lists of peers generate. `mem_group_iff`: a group
  is one of its classes.
* `discover_partition`: every card is in one domain, and in the right one.

The iteration orders of the two hash maps are arguments, and so are the hash function and
what the outside world answers.
-/

namespace Accelrd.Topology

open Std Sensors Insertions Relation

/-! ### Reading the peers of a card -/

/-- The tokens with a colon of a file, if it can be read. -/
def peersIn (sysfs : Sysfs) (path : Path) : List String :=
  match sysfs path with
  | none => []
  | some s => ((Text.words Text.isAsciiWhitespace s.toList).filter (':' ∈ ·)).map String.ofList

/-- `read_xgmi_peers`: the first of three files that has any. -/
def readXgmiPeers (sysfs : Sysfs) (deviceDir : Path) : List String :=
  (["xgmi_peer_links", "xgmi_phy_id", "xgmi_link_status"].findSome? fun name =>
    let peers := peersIn sysfs (deviceDir.join name)
    if peers = [] then none else some peers).getD []

/-! ### Groups of cards -/

/-- The type of `adjacency`. -/
abbrev PeerMap : Type := ExtTreeMap AcceleratorId (ExtTreeSet AcceleratorId)

/-- `adjacency.entry(a).or_default()`. -/
def PeerMap.orDefault (adjacency : PeerMap) (a : AcceleratorId) : PeerMap :=
  adjacency.insert a (adjacency.getD a ∅)

/-- `adjacency.entry(a).or_default().insert(b)`. -/
def PeerMap.link (adjacency : PeerMap) (a b : AcceleratorId) : PeerMap :=
  adjacency.insert a ((adjacency.getD a ∅).insert b)

/-- The first card with an address. -/
def resolve (amd : List Accelerator) (addr : String) : Option Accelerator :=
  amd.find? fun p => p.id.pciAddr = addr

/-- One turn of the loop over the addresses that a card lists. -/
def PeerMap.addPeer (amd : List Accelerator) (a : Accelerator) (adjacency : PeerMap)
    (addr : String) : PeerMap :=
  match resolve amd addr with
  | none => adjacency
  | some peer => (adjacency.link a.id peer.id).link peer.id a.id

/-- The loop that fills `adjacency`. -/
def peerMap (sysfs : Sysfs) (amd : List Accelerator) : PeerMap :=
  amd.foldl (fun adjacency a =>
    (readXgmiPeers sysfs a.deviceDir).foldl (PeerMap.addPeer amd a) (adjacency.orDefault a.id)) ∅

/-- The neighbours of a card, as `adjacency` has them. -/
def PeerMap.graph (adjacency : PeerMap) : Components.Adjacency AcceleratorId where
  keys := adjacency.keys
  next a := (adjacency.getD a ∅).toList
  next_eq_nil a ha := by
    rw [ExtTreeMap.mem_keys] at ha
    rw [ExtTreeMap.getD_eq_fallback ha, List.eq_nil_iff_forall_not_mem]
    exact fun b hb => ExtTreeSet.not_mem_empty (ExtTreeSet.mem_toList.mp hb)

/-- The AMD cards. -/
def amdCards (accels : List Accelerator) : List Accelerator :=
  accels.filter fun a => a.id.vendor = .amd

/-- `build_amd_xgmi_groups`. -/
def buildAmdXgmiGroups (sysfs : Sysfs) (order : HashOrder AcceleratorId)
    (accels : List Accelerator) : List (List AcceleratorId) :=
  let adjacency := peerMap sysfs (amdCards accels)
  (Components.components adjacency.graph [] (order.arrange adjacency.keys)).map
    (List.insertionSort fun a b => a.pciAddr ≤ b.pciAddr)

/-! ### Domains -/

/-- `stable_domain_id`, for what `DefaultHasher` makes of a list of addresses. -/
def stableDomainId (hash : List String → UInt64) (members : List AcceleratorId) : String :=
  let sorted := (members.map AcceleratorId.pciAddr).insertionSort (· ≤ ·)
  "fab-" ++ String.ofList (Nat.toDigits 16 (hash sorted &&& 0xffffffff).toNat)

/-- Sets the domain of the first accelerator with an id. -/
def setFabric (id : String) (m : AcceleratorId) : List Accelerator → List Accelerator
  | [] => []
  | a :: accels =>
      if a.id = m then { a with fabricDomain := some id } :: accels
      else a :: setFabric id m accels

/-- `assign_fabric`. -/
def assignFabric (accels : List Accelerator) (members : List AcceleratorId) (id : String) :
    List Accelerator :=
  members.foldl (fun accels m => setFabric id m accels) accels

/-- The loop of `discover` over the groups. -/
def placeGroups (hash : List String → UInt64) (groups : List (List AcceleratorId))
    (accels : List Accelerator) : List FabricDomain × List Accelerator :=
  groups.foldl (fun (domains, accels) members =>
    let id := stableDomainId hash members
    (domains ++ [⟨id, .xgmi, members, none⟩], assignFabric accels members id)) ([], accels)

/-- The loop of `discover` over the accelerators that have no domain yet. -/
def placeRest (hash : List String → UInt64) :
    List Accelerator → List FabricDomain × List Accelerator
  | [] => ([], [])
  | a :: accels =>
      let (domains, rest) := placeRest hash accels
      match a.fabricDomain with
      | some _ => (domains, a :: rest)
      | none =>
          let id := stableDomainId hash [a.id]
          (⟨id, .pcie, [a.id], none⟩ :: domains, { a with fabricDomain := some id } :: rest)

/-! ### The rack -/

/-- One turn of the loop of `infer_rack_from_lldp`: the entry of a chassis id is counted up,
or made, with the neighbour. -/
def countChassis (counts : ExtTreeMap String (ℕ × LldpNeighbor)) (n : LldpNeighbor) :
    ExtTreeMap String (ℕ × LldpNeighbor) :=
  match counts[n.chassisId]? with
  | some (c, first) => counts.insert n.chassisId (c + 1, first)
  | none => counts.insert n.chassisId (1, n)

/-- `counts` of `infer_rack_from_lldp`. -/
def chassisCounts (neighbors : List LldpNeighbor) : ExtTreeMap String (ℕ × LldpNeighbor) :=
  neighbors.foldl countChassis ∅

/-- `Iterator::max_by_key` on the first component: of several greatest ones the last. -/
def maxByCount {α : Type} (entries : List (ℕ × α)) : Option (ℕ × α) :=
  entries.foldl (fun best e => match best with
    | none => some e
    | some b => if b.1 ≤ e.1 then some e else some b) none

/-- `infer_rack_from_lldp`. -/
def inferRackFromLldp (order : HashOrder (ℕ × LldpNeighbor)) (neighbors : List LldpNeighbor) :
    Option String :=
  let entries := (chassisCounts neighbors).toList.map Prod.snd
  (maxByCount (order.arrange entries)).map fun e => e.2.rackSlug

/-! ### Discovery -/

/-- The settings of `Resolved` that `discover` reads. -/
structure Resolved where
  block : Option String
  rack : Option String
  noLldp : Bool
  lldpTimeoutSecs : ℕ

/-- What a run of `discover` finds on its host: the files of the kernel, the hash function,
the orders of the two hash maps, the RDMA devices, and the switches that are heard from
within a time. -/
structure Host where
  sysfs : Sysfs
  hash : List String → UInt64
  adjacencyOrder : HashOrder AcceleratorId
  countsOrder : HashOrder (ℕ × LldpNeighbor)
  rdma : RdmaInventory
  lldp : ℕ → List LldpNeighbor

/-- `discover`, with what becomes of the accelerators. -/
def discover (args : Resolved) (host : Host) (accels : List Accelerator) :
    NodeTopology × List Accelerator :=
  let groups := buildAmdXgmiGroups host.sysfs host.adjacencyOrder accels
  let (xgmi, accels) := placeGroups host.hash groups accels
  let (pcie, accels) := placeRest host.hash accels
  let neighbors := if args.noLldp then [] else host.lldp args.lldpTimeoutSecs
  let rack := args.rack.or
    (if args.noLldp then none else inferRackFromLldp host.countsOrder neighbors)
  ({ block := args.block, rack, fabricDomains := xgmi ++ pcie, lldpNeighbors := neighbors,
     rdma := host.rdma }, accels)

/-! ### Which cards are connected -/

section Groups

variable (sysfs : Sysfs) (accels : List Accelerator)

/-- The AMD card `a` lists an address, and of the AMD cards `b` is the one it resolves to. -/
def Lists (a b : AcceleratorId) : Prop :=
  ∃ x ∈ amdCards accels, x.id = a ∧ ∃ addr ∈ readXgmiPeers sysfs x.deviceDir,
    ∃ y, resolve (amdCards accels) addr = some y ∧ y.id = b

/-- The equivalence that this generates. -/
def Connected : AcceleratorId → AcceleratorId → Prop := EqvGen (Lists sysfs accels)

variable {sysfs accels}

lemma PeerMap.mem_link {adjacency : PeerMap} {a b k c : AcceleratorId} :
    c ∈ (adjacency.link a b).getD k ∅ ↔ k = a ∧ c = b ∨ c ∈ adjacency.getD k ∅ := by
  rw [link, ExtTreeMap.getD_insert]
  by_cases hk : a = k
  · subst hk
    rw [if_pos compare_self, ExtTreeSet.mem_insert, Std.compare_eq_iff_eq]
    simp [eq_comm]
  · simp [hk, Ne.symm hk]

lemma PeerMap.mem_orDefault {adjacency : PeerMap} {a k c : AcceleratorId} :
    c ∈ (adjacency.orDefault a).getD k ∅ ↔ c ∈ adjacency.getD k ∅ := by
  rw [orDefault, ExtTreeMap.getD_insert]
  by_cases hk : a = k
  · subst hk
    simp
  · simp [hk]

/-- A link in both directions. -/
lemma PeerMap.mem_link_link {adjacency : PeerMap} {a b k c : AcceleratorId} :
    c ∈ ((adjacency.link a b).link b a).getD k ∅ ↔
      (k = a ∧ c = b ∨ k = b ∧ c = a) ∨ c ∈ adjacency.getD k ∅ := by
  rw [mem_link, mem_link, ← or_assoc]
  exact or_congr_left or_comm

/-- What the loop over the addresses of one card adds. -/
lemma PeerMap.mem_foldl_addPeer {amd : List Accelerator} {a : Accelerator} {addrs : List String}
    {adjacency : PeerMap} {k c : AcceleratorId} :
    c ∈ (addrs.foldl (addPeer amd a) adjacency).getD k ∅ ↔
      (∃ addr ∈ addrs, ∃ y, resolve amd addr = some y ∧
        (k = a.id ∧ c = y.id ∨ k = y.id ∧ c = a.id)) ∨ c ∈ adjacency.getD k ∅ := by
  induction addrs generalizing adjacency with
  | nil => simp
  | cons addr addrs ih =>
      rw [List.foldl_cons, ih, addPeer]
      cases hy : resolve amd addr with
      | none => simp [hy]
      | some y =>
          simp only [mem_link_link, List.exists_mem_cons_iff, hy, Option.some.injEq,
            exists_eq_left']
          rw [← or_assoc]
          exact or_congr_left or_comm

/-- What the loop over the cards adds. -/
lemma mem_peerMap {amd : List Accelerator} {k c : AcceleratorId} :
    c ∈ (peerMap sysfs amd).getD k ∅ ↔ ∃ a ∈ amd, ∃ addr ∈ readXgmiPeers sysfs a.deviceDir,
      ∃ y, resolve amd addr = some y ∧ (k = a.id ∧ c = y.id ∨ k = y.id ∧ c = a.id) := by
  have hfold (l : List Accelerator) (adjacency : PeerMap) :
      c ∈ (l.foldl (fun adjacency a => (readXgmiPeers sysfs a.deviceDir).foldl
        (PeerMap.addPeer amd a) (adjacency.orDefault a.id)) adjacency).getD k ∅ ↔
      (∃ a ∈ l, ∃ addr ∈ readXgmiPeers sysfs a.deviceDir,
        ∃ y, resolve amd addr = some y ∧ (k = a.id ∧ c = y.id ∨ k = y.id ∧ c = a.id)) ∨
      c ∈ adjacency.getD k ∅ := by
    induction l generalizing adjacency with
    | nil => simp
    | cons a l ih =>
        rw [List.foldl_cons, ih, PeerMap.mem_foldl_addPeer, PeerMap.mem_orDefault,
          List.exists_mem_cons_iff, ← or_assoc]
        exact or_congr_left or_comm
  rw [peerMap, hfold]
  simp

/-- **Neighbours in `adjacency` are cards of which one lists the other.** -/
lemma link_graph_iff {a b : AcceleratorId} :
    (peerMap sysfs (amdCards accels)).graph.Link a b ↔ SymmGen (Lists sysfs accels) a b := by
  rw [Components.Adjacency.Link, PeerMap.graph, ExtTreeSet.mem_toList, mem_peerMap]
  constructor
  · rintro ⟨x, hx, addr, haddr, y, hy, ⟨rfl, rfl⟩ | ⟨rfl, rfl⟩⟩
    · exact Or.inl ⟨x, hx, rfl, addr, haddr, y, hy, rfl⟩
    · exact Or.inr ⟨x, hx, rfl, addr, haddr, y, hy, rfl⟩
  · rintro (⟨x, hx, rfl, addr, haddr, y, hy, rfl⟩ | ⟨x, hx, rfl, addr, haddr, y, hy, rfl⟩)
    · exact ⟨x, hx, addr, haddr, y, hy, Or.inl ⟨rfl, rfl⟩⟩
    · exact ⟨x, hx, addr, haddr, y, hy, Or.inr ⟨rfl, rfl⟩⟩

lemma link_graph_symm (a b : AcceleratorId)
    (h : (peerMap sysfs (amdCards accels)).graph.Link a b) :
    (peerMap sysfs (amdCards accels)).graph.Link b a :=
  link_graph_iff.mpr (link_graph_iff.mp h).symm

lemma reach_graph_iff {a b : AcceleratorId} :
    ReflTransGen (peerMap sysfs (amdCards accels)).graph.Link a b ↔ Connected sysfs accels a b := by
  constructor
  · intro h
    induction h with
    | refl => exact .refl _
    | tail _ hlink ih =>
        rcases link_graph_iff.mp hlink with h | h
        · exact .trans _ _ _ ih (.rel _ _ h)
        · exact .trans _ _ _ ih (.symm _ _ (.rel _ _ h))
  · intro h
    induction h with
    | rel a b h => exact .single (link_graph_iff.mpr (Or.inl h))
    | refl => exact .refl
    | symm a b _ ih => exact Components.reach_symm link_graph_symm ih
    | trans a b c _ _ ih ih' => exact ih.trans ih'

lemma Lists.mem_left {a b : AcceleratorId} (h : Lists sysfs accels a b) :
    a ∈ accels.map Accelerator.id := by
  obtain ⟨x, hx, rfl, -⟩ := h
  exact List.mem_map_of_mem (List.mem_of_mem_filter hx)

lemma Lists.mem_right {a b : AcceleratorId} (h : Lists sysfs accels a b) :
    b ∈ accels.map Accelerator.id := by
  obtain ⟨x, -, -, addr, -, y, hy, rfl⟩ := h
  exact List.mem_map_of_mem (List.mem_of_mem_filter (List.mem_of_find?_eq_some hy))

lemma mem_of_symmGen {a b : AcceleratorId} (h : SymmGen (Lists sysfs accels) a b) :
    a ∈ accels.map Accelerator.id := h.elim Lists.mem_left Lists.mem_right

lemma Connected.symm {a b : AcceleratorId} (h : Connected sysfs accels a b) :
    Connected sysfs accels b a := EqvGen.symm _ _ h

lemma Connected.trans {a b c : AcceleratorId} (h : Connected sysfs accels a b)
    (h' : Connected sysfs accels b c) : Connected sysfs accels a c := EqvGen.trans _ _ _ h h'

/-- Cards that are connected to a card of the node are cards of the node. -/
lemma Connected.mem {a x : AcceleratorId} (h : Connected sysfs accels a x)
    (ha : a ∈ accels.map Accelerator.id) : x ∈ accels.map Accelerator.id := by
  rcases (reach_graph_iff.mpr h).cases_tail with rfl | ⟨b, -, hbx⟩
  · exact ha
  · exact mem_of_symmGen (link_graph_iff.mp hbx).symm

/-- A card without links to others is connected to itself alone. -/
lemma connected_iff_eq {a x : AcceleratorId}
    (ha : ∀ b, SymmGen (Lists sysfs accels) a b → b = a) :
    Connected sysfs accels a x ↔ x = a := by
  constructor
  · intro h
    induction reach_graph_iff.mpr h with
    | refl => rfl
    | tail hreach hlink ih =>
        rw [ih (reach_graph_iff.mp hreach)] at hlink
        exact ha _ (link_graph_iff.mp hlink)
  · rintro rfl
    exact .refl _

/-! ### The groups -/

variable {order : HashOrder AcceleratorId}

lemma exists_symmGen_iff {a : AcceleratorId} :
    (peerMap sysfs (amdCards accels)).graph.next a ≠ [] ↔
      ∃ b, SymmGen (Lists sysfs accels) a b := by
  constructor
  · intro h
    obtain ⟨b, hb⟩ := List.exists_mem_of_ne_nil _ h
    exact ⟨b, link_graph_iff.mp hb⟩
  · rintro ⟨b, hb⟩
    exact List.ne_nil_of_mem (link_graph_iff.mpr hb)

/-- **No card is in two groups, or twice in one.** -/
lemma nodup_flatten_groups : (buildAmdXgmiGroups sysfs order accels).flatten.Nodup := by
  have hperm (gs : List (List AcceleratorId)) :
      (gs.map (List.insertionSort fun a b => a.pciAddr ≤ b.pciAddr)).flatten.Perm gs.flatten := by
    induction gs with
    | nil => exact .refl _
    | cons g gs ih => exact (List.perm_insertionSort _ g).append ih
  exact (hperm _).nodup_iff.mpr (Components.nodup_flatten_components link_graph_symm _)

/-- **A group is a class of connected cards.** -/
lemma mem_group_iff {group : List AcceleratorId}
    (h : group ∈ buildAmdXgmiGroups sysfs order accels) :
    ∃ start, (∃ b, SymmGen (Lists sysfs accels) start b) ∧
      ∀ x, x ∈ group ↔ Connected sysfs accels start x := by
  obtain ⟨component, hcomponent, rfl⟩ := List.mem_map.mp h
  obtain ⟨start, hstart, hmem⟩ := Components.component_of_mem link_graph_symm hcomponent
  refine ⟨start, exists_symmGen_iff.mp hstart, fun x => ?_⟩
  rw [(List.perm_insertionSort _ component).mem_iff, hmem, reach_graph_iff]

/-- **A card with a link is in a group.** -/
lemma mem_flatten_groups {a b : AcceleratorId} (h : SymmGen (Lists sysfs accels) a b) :
    a ∈ (buildAmdXgmiGroups sysfs order accels).flatten := by
  obtain ⟨component, hcomponent, ha⟩ := List.mem_flatten.mp
    (@Components.exists_component _ _ _ link_graph_symm
      (order.arrange (peerMap sysfs (amdCards accels)).keys)
      (fun v hv => order.mem_arrange.mpr hv) _ (exists_symmGen_iff.mpr ⟨b, h⟩))
  exact List.mem_flatten.mpr ⟨_, List.mem_map_of_mem hcomponent,
    (List.perm_insertionSort _ component).mem_iff.mpr ha⟩

end Groups

/-! ### Placing the cards -/

section Placing

/-- What does not read the field of the domain does not see it set. -/
lemma map_setFabric {β : Type} {f : Accelerator → β}
    (hf : ∀ a id, f { a with fabricDomain := some id } = f a) (id : String) (m : AcceleratorId)
    (accels : List Accelerator) : (setFabric id m accels).map f = accels.map f := by
  induction accels with
  | nil => rfl
  | cons a accels ih =>
      rw [setFabric]
      split_ifs
      · rw [List.map_cons, List.map_cons, hf]
      · rw [List.map_cons, List.map_cons, ih]

lemma map_assignFabric {β : Type} {f : Accelerator → β}
    (hf : ∀ a id, f { a with fabricDomain := some id } = f a) (accels : List Accelerator)
    (members : List AcceleratorId) (id : String) :
    (assignFabric accels members id).map f = accels.map f := by
  induction members generalizing accels with
  | nil => rfl
  | cons m members ih => exact (ih _).trans (map_setFabric hf id m accels)

/-- Setting the domain of one card, if ids are distinct. -/
lemma setFabric_eq_map {accels : List Accelerator} (hids : (accels.map Accelerator.id).Nodup)
    (id : String) (m : AcceleratorId) :
    setFabric id m accels
      = accels.map fun a => if a.id = m then { a with fabricDomain := some id } else a := by
  induction accels with
  | nil => rfl
  | cons a accels ih =>
      obtain ⟨ha, hids⟩ := List.nodup_cons.mp hids
      rw [setFabric, List.map_cons]
      by_cases hm : a.id = m
      · have hrest : ∀ b ∈ accels,
            (if b.id = m then { b with fabricDomain := some id } else b) = b := by
          intro b hb
          rw [if_neg]
          intro hbm
          exact ha (hm ▸ hbm ▸ List.mem_map_of_mem hb)
        rw [if_pos hm, if_pos hm, List.map_congr_left hrest, List.map_id']
      · rw [if_neg hm, if_neg hm, ih hids]

/-- Setting the domain of some cards. -/
lemma assignFabric_eq_map {accels : List Accelerator}
    (hids : (accels.map Accelerator.id).Nodup) (members : List AcceleratorId) (id : String) :
    assignFabric accels members id
      = accels.map fun a => if a.id ∈ members then { a with fabricDomain := some id } else a := by
  induction members generalizing accels with
  | nil => simp [assignFabric]
  | cons m members ih =>
      have hmap : (setFabric id m accels).map Accelerator.id = accels.map Accelerator.id :=
        map_setFabric (fun _ _ => rfl) id m accels
      have hstep : assignFabric accels (m :: members) id
          = assignFabric (setFabric id m accels) members id := rfl
      rw [hstep, ih (by rwa [hmap]), setFabric_eq_map hids, List.map_map]
      refine List.map_congr_left fun a _ => ?_
      by_cases hm : a.id = m <;> by_cases hms : a.id ∈ members <;> simp [hm, hms]

/-- What the loop over the groups leaves in the field of a card. -/
def domainAfter (hash : List String → UInt64) (groups : List (List AcceleratorId))
    (a : AcceleratorId) (before : Option String) : Option String :=
  groups.foldl (fun f g => if a ∈ g then some (stableDomainId hash g) else f) before

variable {hash : List String → UInt64} {groups : List (List AcceleratorId)}

lemma domainAfter_of_not_mem {a : AcceleratorId} (ha : a ∉ groups.flatten)
    (before : Option String) : domainAfter hash groups a before = before := by
  induction groups with
  | nil => rfl
  | cons g groups ih =>
      rw [List.flatten_cons, List.mem_append, not_or] at ha
      rw [domainAfter, List.foldl_cons, if_neg ha.1]
      exact ih ha.2

lemma domainAfter_of_mem (hnodup : groups.flatten.Nodup) {g : List AcceleratorId}
    {a : AcceleratorId} (hg : g ∈ groups) (ha : a ∈ g) (before : Option String) :
    domainAfter hash groups a before = some (stableDomainId hash g) := by
  induction groups generalizing before with
  | nil => exact absurd hg List.not_mem_nil
  | cons g' groups ih =>
      obtain ⟨-, hgroups, hdisjoint⟩ := List.nodup_append'.mp hnodup
      rw [domainAfter, List.foldl_cons]
      rcases List.mem_cons.mp hg with rfl | hg
      · rw [if_pos ha]
        exact domainAfter_of_not_mem (fun hrest => hdisjoint ha hrest) _
      · exact ih hgroups hg _

/-- The domains of the loop over the groups, and what it leaves alone. -/
lemma placeGroups_spec {β : Type} {f : Accelerator → β}
    (hf : ∀ a id, f { a with fabricDomain := some id } = f a)
    (groups : List (List AcceleratorId)) (accels : List Accelerator) :
    (placeGroups hash groups accels).1
        = groups.map (fun g => ⟨stableDomainId hash g, .xgmi, g, none⟩) ∧
      (placeGroups hash groups accels).2.map f = accels.map f := by
  have hfold (domains : List FabricDomain) :
      (groups.foldl (fun (domains, accels) members =>
        (domains ++ [⟨stableDomainId hash members, .xgmi, members, none⟩],
          assignFabric accels members (stableDomainId hash members))) (domains, accels)).1
        = domains ++ groups.map (fun g => ⟨stableDomainId hash g, .xgmi, g, none⟩) ∧
      (groups.foldl (fun (domains, accels) members =>
        (domains ++ [⟨stableDomainId hash members, .xgmi, members, none⟩],
          assignFabric accels members (stableDomainId hash members))) (domains, accels)).2.map f
        = accels.map f := by
    induction groups generalizing accels domains with
    | nil => simp
    | cons g groups ih =>
        obtain ⟨hdomains, hmap⟩ := ih (assignFabric accels g (stableDomainId hash g))
          (domains ++ [⟨stableDomainId hash g, .xgmi, g, none⟩])
        rw [List.foldl_cons]
        refine ⟨by rw [hdomains, List.append_assoc]; rfl, ?_⟩
        rw [hmap, map_assignFabric hf]
  exact hfold []

/-- The loop over the groups. -/
lemma placeGroups_eq (groups : List (List AcceleratorId)) {accels : List Accelerator}
    (hids : (accels.map Accelerator.id).Nodup) :
    placeGroups hash groups accels
      = (groups.map fun g => ⟨stableDomainId hash g, .xgmi, g, none⟩,
        accels.map fun a =>
          { a with fabricDomain := domainAfter hash groups a.id a.fabricDomain }) := by
  have hfold (domains : List FabricDomain) :
      groups.foldl (fun (domains, accels) members =>
        (domains ++ [⟨stableDomainId hash members, .xgmi, members, none⟩],
          assignFabric accels members (stableDomainId hash members))) (domains, accels)
      = (domains ++ groups.map fun g => ⟨stableDomainId hash g, .xgmi, g, none⟩,
        accels.map fun a =>
          { a with fabricDomain := domainAfter hash groups a.id a.fabricDomain }) := by
    induction groups generalizing accels domains with
    | nil => simp [domainAfter]
    | cons g groups ih =>
        have hmap : (assignFabric accels g (stableDomainId hash g)).map Accelerator.id
            = accels.map Accelerator.id := map_assignFabric (fun _ _ => rfl) accels g _
        rw [List.foldl_cons, ih (by rwa [hmap]), assignFabric_eq_map hids, List.map_map,
          List.map_cons, List.append_assoc, List.singleton_append]
        refine Prod.ext rfl (List.map_congr_left fun a _ => ?_)
        rw [Function.comp_apply, domainAfter, domainAfter, List.foldl_cons]
        split_ifs <;> rfl
  exact hfold []

/-- The loop over the cards without a domain. -/
lemma placeRest_eq (accels : List Accelerator) :
    placeRest hash accels
      = ((accels.filter (·.fabricDomain.isNone)).map fun a =>
          ⟨stableDomainId hash [a.id], .pcie, [a.id], none⟩,
        accels.map fun a => { a with
          fabricDomain := some (a.fabricDomain.getD (stableDomainId hash [a.id])) }) := by
  induction accels with
  | nil => rfl
  | cons a accels ih =>
      rw [placeRest, ih]
      cases a with
      | mk id model memoryKind total numa coverage fabricDomain partitioned dir =>
          cases fabricDomain <;> simp

end Placing

/-! ### The domains of a node -/

section Domains

/-- The cards that get a domain: those that have none, and those with a link. -/
def Placed (sysfs : Sysfs) (accels : List Accelerator) (a : Accelerator) : Prop :=
  a.fabricDomain = none ∨ ∃ b, SymmGen (Lists sysfs accels) a.id b

/-- Domains that partition the placed cards of a node into connected classes. -/
structure Placement (host : Host) (accels : List Accelerator) (domains : List FabricDomain) :
    Prop where
  nodup : (domains.flatMap FabricDomain.memberAccelerators).Nodup
  component : ∀ d ∈ domains, ∃ a ∈ accels, Placed host.sysfs accels a ∧
    ∀ x, x ∈ d.memberAccelerators ↔ Connected host.sysfs accels a.id x
  cover : ∀ a ∈ accels, Placed host.sysfs accels a → ∃ d ∈ domains, a.id ∈ d.memberAccelerators
  id_eq : ∀ d ∈ domains, d.id = stableDomainId host.hash d.memberAccelerators

variable (args : Resolved) (host : Host) {accels : List Accelerator}

/-- The groups of a node. -/
def groupsOf (accels : List Accelerator) : List (List AcceleratorId) :=
  buildAmdXgmiGroups host.sysfs host.adjacencyOrder accels

/-- Whether the loop over the groups leaves a card without a domain. -/
def leftOver (accels : List Accelerator) (a : Accelerator) : Bool :=
  (domainAfter host.hash (groupsOf host accels) a.id a.fabricDomain).isNone

/-- The domains, group by group and then card by card. -/
lemma fabricDomains_discover (hids : (accels.map Accelerator.id).Nodup) :
    (discover args host accels).1.fabricDomains
      = (groupsOf host accels).map (fun g => ⟨stableDomainId host.hash g, .xgmi, g, none⟩) ++
        (accels.filter (leftOver host accels)).map fun a =>
          ⟨stableDomainId host.hash [a.id], .pcie, [a.id], none⟩ := by
  rw [discover]
  simp only [placeGroups_eq _ hids, placeRest_eq]
  rw [List.filter_map, List.map_map]
  rfl

/-- The cards afterwards. -/
lemma accels_discover (hids : (accels.map Accelerator.id).Nodup) :
    (discover args host accels).2 = accels.map fun a => { a with
      fabricDomain := some ((domainAfter host.hash (groupsOf host accels) a.id a.fabricDomain).getD
        (stableDomainId host.hash [a.id])) } := by
  rw [discover]
  simp only [placeGroups_eq _ hids, placeRest_eq]
  rw [List.map_map]
  rfl

/-- `discover` changes the field of the domain alone. -/
lemma map_discover {β : Type} {f : Accelerator → β}
    (hf : ∀ a id, f { a with fabricDomain := some id } = f a) :
    (discover args host accels).2.map f = accels.map f := by
  obtain ⟨-, hmap⟩ := @placeGroups_spec host.hash _ _ hf (groupsOf host accels) accels
  rw [discover]
  simp only [placeRest_eq]
  rw [← hmap, List.map_map]
  exact List.map_congr_left fun a _ => hf a _

variable {host}

/-- Domains have the ids of their members, and are no more than twice as many as the cards;
so are all their members together. -/
lemma domains_discover :
    (∀ d ∈ (discover args host accels).1.fabricDomains,
      d.id = stableDomainId host.hash d.memberAccelerators) ∧
    ((discover args host accels).1.fabricDomains).length ≤ 2 * accels.length ∧
    (((discover args host accels).1.fabricDomains).flatMap
      FabricDomain.memberAccelerators).length ≤ 2 * accels.length := by
  obtain ⟨hxgmi, hmap⟩ := @placeGroups_spec host.hash _ Accelerator.id
    (fun _ _ => rfl) (groupsOf host accels) accels
  have hlength := congrArg List.length hmap
  rw [List.length_map, List.length_map] at hlength
  have hgroups : (groupsOf host accels).flatten.length ≤ accels.length := by
    have hsub : (groupsOf host accels).flatten ⊆ accels.map Accelerator.id := by
      intro x hx
      obtain ⟨g, hg, hxg⟩ := List.mem_flatten.mp hx
      obtain ⟨start, ⟨b, hlink⟩, hmem⟩ := mem_group_iff hg
      exact ((hmem x).mp hxg).mem (mem_of_symmGen hlink)
    have hnodup : (groupsOf host accels).flatten.Nodup := nodup_flatten_groups
    have hle := (List.subperm_of_subset hnodup hsub).length_le
    rwa [List.length_map] at hle
  have hcount : (groupsOf host accels).length ≤ (groupsOf host accels).flatten.length := by
    rw [List.length_flatten]
    refine (List.length_map List.length).symm.trans_le (List.length_le_sum_of_one_le _ ?_)
    refine List.forall_mem_map.mpr fun g hg => List.length_pos_iff.mpr ?_
    obtain ⟨start, -, hmem⟩ := mem_group_iff hg
    exact List.ne_nil_of_mem ((hmem start).mpr (.refl _))
  obtain ⟨rest, hrest, hdomains⟩ : ∃ rest : List Accelerator, rest.length ≤ accels.length ∧
      (discover args host accels).1.fabricDomains
        = (groupsOf host accels).map (fun g => ⟨stableDomainId host.hash g, .xgmi, g, none⟩) ++
          rest.map fun a => ⟨stableDomainId host.hash [a.id], .pcie, [a.id], none⟩ := by
    refine ⟨(placeGroups host.hash (groupsOf host accels) accels).2.filter
      (·.fabricDomain.isNone), (List.length_filter_le _ _).trans_eq hlength, ?_⟩
    rw [discover]
    simp only [placeRest_eq]
    exact congrArg (· ++ _) hxgmi
  rw [hdomains]
  refine ⟨List.forall_mem_append.mpr ⟨List.forall_mem_map.mpr fun g _ => rfl,
    List.forall_mem_map.mpr fun a _ => rfl⟩, ?_, ?_⟩
  · rw [List.length_append, List.length_map, List.length_map]
    omega
  · rw [List.flatMap_append, List.length_append, List.flatMap_map, List.flatMap_map]
    have hxgmiMembers : ((groupsOf host accels).flatMap fun g => g).length
        = (groupsOf host accels).flatten.length := by rw [List.flatMap_id']
    have hrestMembers : (rest.flatMap fun a => [a.id]).length = rest.length := by
      rw [← List.map_eq_flatMap, List.length_map]
    show ((groupsOf host accels).flatMap fun g => g).length
      + (rest.flatMap fun a => [a.id]).length ≤ _
    omega

lemma leftOver_of_mem {g : List AcceleratorId} {a : Accelerator} (hg : g ∈ groupsOf host accels)
    (ha : a.id ∈ g) : leftOver host accels a = false := by
  have hnodup : (groupsOf host accels).flatten.Nodup := nodup_flatten_groups
  rw [leftOver, domainAfter_of_mem hnodup hg ha]
  rfl

/-- A card that is left over has no domain and no link. -/
lemma leftOver_iff {a : Accelerator} :
    leftOver host accels a = true ↔
      a.fabricDomain = none ∧ a.id ∉ (groupsOf host accels).flatten := by
  constructor
  · intro h
    have hmem : a.id ∉ (groupsOf host accels).flatten := by
      intro hmem
      obtain ⟨g, hg, ha⟩ := List.mem_flatten.mp hmem
      rw [leftOver_of_mem hg ha] at h
      exact absurd h (by decide)
    rw [leftOver, domainAfter_of_not_mem hmem] at h
    exact ⟨Option.isNone_iff_eq_none.mp h, hmem⟩
  · rintro ⟨hnone, hmem⟩
    rw [leftOver, domainAfter_of_not_mem hmem, hnone]
    rfl

/-- **The domains of a node partition its cards into connected classes.** -/
theorem discover_placement (hids : (accels.map Accelerator.id).Nodup) :
    Placement host accels (discover args host accels).1.fabricDomains := by
  rw [fabricDomains_discover args host hids]
  refine ⟨?nodup, ?component, ?cover, ?id_eq⟩
  case nodup =>
    have hgroups : ((groupsOf host accels).map fun g =>
        (⟨stableDomainId host.hash g, .xgmi, g, none⟩ : FabricDomain)).flatMap
        FabricDomain.memberAccelerators = (groupsOf host accels).flatten := by
      rw [List.flatMap_map]
      exact List.flatMap_id
    have hrest : ((accels.filter (leftOver host accels)).map fun a =>
        (⟨stableDomainId host.hash [a.id], .pcie, [a.id], none⟩ : FabricDomain)).flatMap
        FabricDomain.memberAccelerators
          = (accels.filter (leftOver host accels)).map Accelerator.id := by
      rw [List.flatMap_map, List.map_eq_flatMap]
    rw [List.flatMap_append, hgroups, hrest]
    refine List.nodup_append'.mpr ⟨nodup_flatten_groups,
      hids.sublist (List.filter_sublist.map _), fun x hx hrest => ?_⟩
    obtain ⟨a, ha, rfl⟩ := List.mem_map.mp hrest
    exact (leftOver_iff.mp (List.mem_filter.mp ha).2).2 hx
  case component =>
    refine List.forall_mem_append.mpr ⟨List.forall_mem_map.mpr fun g hg => ?_,
      List.forall_mem_map.mpr fun a ha => ?_⟩
    · obtain ⟨start, ⟨b, hlink⟩, hmem⟩ := mem_group_iff hg
      obtain ⟨a, ha, rfl⟩ := List.mem_map.mp (mem_of_symmGen hlink)
      exact ⟨a, ha, Or.inr ⟨b, hlink⟩, hmem⟩
    · obtain ⟨hmem, hleft⟩ := List.mem_filter.mp ha
      obtain ⟨hnone, hgroup⟩ := leftOver_iff.mp hleft
      refine ⟨a, hmem, Or.inl hnone, fun x => ?_⟩
      rw [List.mem_singleton, connected_iff_eq fun b hb =>
        absurd (mem_flatten_groups hb) hgroup]
  case cover =>
    intro a ha hplaced
    by_cases hgroup : a.id ∈ (groupsOf host accels).flatten
    · obtain ⟨g, hg, hag⟩ := List.mem_flatten.mp hgroup
      exact ⟨_, List.mem_append_left _ (List.mem_map_of_mem hg), hag⟩
    · have hnone : a.fabricDomain = none := by
        rcases hplaced with hnone | ⟨b, hb⟩
        · exact hnone
        · exact absurd (mem_flatten_groups hb) hgroup
      have hleft := List.mem_filter.mpr ⟨ha, leftOver_iff.mpr ⟨hnone, hgroup⟩⟩
      exact ⟨_, List.mem_append_right _ (List.mem_map_of_mem hleft), List.mem_singleton_self _⟩
  case id_eq =>
    exact List.forall_mem_append.mpr ⟨List.forall_mem_map.mpr fun g _ => rfl,
      List.forall_mem_map.mpr fun a _ => rfl⟩

/-- Without AMD cards every card without a domain gets one of its own. -/
lemma fabricDomains_of_no_amd (hids : (accels.map Accelerator.id).Nodup)
    (hamd : amdCards accels = []) :
    (discover args host accels).1.fabricDomains
      = (accels.filter (·.fabricDomain.isNone)).map fun a =>
          ⟨stableDomainId host.hash [a.id], .pcie, [a.id], none⟩ := by
  have hgroups : groupsOf host accels = [] := by
    rw [groupsOf, buildAmdXgmiGroups, hamd, peerMap, List.foldl_nil, ExtTreeMap.keys_eq_nil_iff.mpr
      rfl, HashOrder.arrange_nil, Components.components, List.map_nil]
  have hleft : leftOver host accels = fun a => a.fabricDomain.isNone := by
    funext a
    rw [leftOver, hgroups]
    rfl
  rw [fabricDomains_discover args host hids, hgroups, hleft, List.map_nil, List.nil_append]

/-! ### The partition -/

/-- In a partition exactly one block has an element. -/
lemma filter_mem_eq_singleton {α β : Type} [DecidableEq β] {l : List α} {f : α → List β}
    (h : (l.flatMap f).Nodup) {d : α} {x : β} (hd : d ∈ l) (hx : x ∈ f d) :
    l.filter (fun d => x ∈ f d) = [d] := by
  induction l with
  | nil => exact absurd hd List.not_mem_nil
  | cons e l ih =>
      obtain ⟨-, hl, hdisjoint⟩ := List.nodup_append'.mp h
      rcases List.mem_cons.mp hd with rfl | hd
      · rw [List.filter_cons_of_pos (by simpa using hx), List.filter_eq_nil_iff.mpr]
        intro e he hxe
        exact hdisjoint hx (List.mem_flatMap.mpr ⟨e, he, by simpa using hxe⟩)
      · rw [List.filter_cons_of_neg, ih hl hd]
        intro hxe
        exact hdisjoint (by simpa using hxe) (List.mem_flatMap.mpr ⟨d, hd, hx⟩)

/-- Two cards of one domain are connected, and connected cards are in one domain. -/
lemma Placement.same_domain_iff {domains : List FabricDomain} (h : Placement host accels domains)
    {a : Accelerator} (ha : a ∈ accels) (hplaced : Placed host.sysfs accels a)
    (b : AcceleratorId) :
    (∃ d ∈ domains, a.id ∈ d.memberAccelerators ∧ b ∈ d.memberAccelerators) ↔
      Connected host.sysfs accels a.id b := by
  constructor
  · rintro ⟨d, hd, had, hbd⟩
    obtain ⟨c, -, -, hmem⟩ := h.component d hd
    exact ((hmem a.id).mp had).symm.trans ((hmem b).mp hbd)
  · intro hab
    obtain ⟨d, hd, had⟩ := h.cover a ha hplaced
    obtain ⟨c, -, -, hmem⟩ := h.component d hd
    exact ⟨d, hd, had, (hmem b).mpr (((hmem a.id).mp had).trans hab)⟩

/-- What `discover` leaves in the field of a card is the id of a domain that has it. -/
lemma fabricDomain_discover (hids : (accels.map Accelerator.id).Nodup) {a : Accelerator}
    (ha : a ∈ accels) (hnone : a.fabricDomain = none) :
    ∃ d ∈ (discover args host accels).1.fabricDomains, a.id ∈ d.memberAccelerators ∧
      (domainAfter host.hash (groupsOf host accels) a.id a.fabricDomain).getD
        (stableDomainId host.hash [a.id]) = d.id := by
  rw [fabricDomains_discover args host hids]
  by_cases hgroup : a.id ∈ (groupsOf host accels).flatten
  · obtain ⟨g, hg, hag⟩ := List.mem_flatten.mp hgroup
    have hnodup : (groupsOf host accels).flatten.Nodup := nodup_flatten_groups
    refine ⟨_, List.mem_append_left _ (List.mem_map_of_mem hg), hag, ?_⟩
    rw [domainAfter_of_mem hnodup hg hag, Option.getD_some]
  · have hleft := List.mem_filter.mpr ⟨ha, leftOver_iff.mpr ⟨hnone, hgroup⟩⟩
    refine ⟨_, List.mem_append_right _ (List.mem_map_of_mem hleft), List.mem_singleton_self _, ?_⟩
    rw [domainAfter_of_not_mem hgroup, hnone, Option.getD_none]

/-- Where every card is placed, the members of the domains are the cards. -/
lemma Placement.members_perm {domains : List FabricDomain} (h : Placement host accels domains)
    (hids : (accels.map Accelerator.id).Nodup)
    (hplaced : ∀ a ∈ accels, Placed host.sysfs accels a) :
    (domains.flatMap FabricDomain.memberAccelerators).Perm (accels.map Accelerator.id) := by
  refine (List.perm_ext_iff_of_nodup h.nodup hids).mpr fun x => ?_
  rw [List.mem_flatMap]
  constructor
  · rintro ⟨d, hd, hx⟩
    obtain ⟨a, ha, -, hmem⟩ := h.component d hd
    exact ((hmem x).mp hx).mem (List.mem_map_of_mem ha)
  · intro hx
    obtain ⟨a, ha, rfl⟩ := List.mem_map.mp hx
    exact h.cover a ha (hplaced a ha)

/-- **`discover` partitions the cards of a node by connectivity.** Whatever the cards list
and in whichever order the hash map hands out its keys: the members of the domains are the
cards, each of them once; the field of a card is the id of the one domain that has it; and
two cards are in one domain if and only if they are connected. -/
theorem discover_partition (hids : (accels.map Accelerator.id).Nodup)
    (hfresh : ∀ a ∈ accels, a.fabricDomain = none) :
    let topology := (discover args host accels).1
    let placed := (discover args host accels).2
    placed.map Accelerator.id = accels.map Accelerator.id ∧
      (topology.fabricDomains.flatMap FabricDomain.memberAccelerators).Perm
        (accels.map Accelerator.id) ∧
      (∀ a ∈ placed, ∃ d,
        topology.fabricDomains.filter (fun d => a.id ∈ d.memberAccelerators) = [d] ∧
          a.fabricDomain = some d.id) ∧
      ∀ a ∈ placed, ∀ b ∈ placed,
        (∃ d ∈ topology.fabricDomains, a.id ∈ d.memberAccelerators ∧ b.id ∈ d.memberAccelerators) ↔
          Connected host.sysfs accels a.id b.id := by
  intro topology placed
  have hplacement : Placement host accels topology.fabricDomains := discover_placement args hids
  have hplaced : ∀ a ∈ accels, Placed host.sysfs accels a := fun a ha => Or.inl (hfresh a ha)
  have haccels : placed = accels.map _ := accels_discover args host hids
  refine ⟨?ids, ?members, ?field, ?same⟩
  case ids => exact map_discover args host fun _ _ => rfl
  case members => exact hplacement.members_perm hids hplaced
  case field =>
    rw [haccels]
    refine List.forall_mem_map.mpr fun a ha => ?_
    obtain ⟨d, hd, had, hid⟩ := @fabricDomain_discover args host accels hids a ha (hfresh a ha)
    exact ⟨d, filter_mem_eq_singleton hplacement.nodup hd had, congrArg some hid⟩
  case same =>
    rw [haccels]
    refine List.forall_mem_map.mpr fun a ha => List.forall_mem_map.mpr fun b _ => ?_
    exact hplacement.same_domain_iff ha (hplaced a ha) b.id

/-- A host without RDMA devices and switches, with the files of `sysfs`. -/
def bareHost (sysfs : Sysfs) (hash : List String → UInt64) : Host where
  sysfs := sysfs
  hash := hash
  adjacencyOrder := HashOrder.id
  countsOrder := HashOrder.id
  rdma := ⟨[]⟩
  lldp := fun _ => []

/-- Two cards, of which the first lists the second and an address that no card has: both are
in one domain, and each of them once. -/
theorem discover_partition_pair :
    let first := bareCard ⟨.amd, 0, "0000:01:00.0"⟩ ["first"]
    let second := bareCard ⟨.amd, 1, "0000:02:00.0"⟩ ["second"]
    let host := bareHost (fun path => if path = ["first", "xgmi_peer_links"] then
      some "0000:02:00.0 0000:09:00.0\n" else none) fun _ => 0
    let domains := (discover ⟨none, none, true, 35⟩ host [first, second]).1.fabricDomains
    (domains.flatMap FabricDomain.memberAccelerators).Perm [first.id, second.id] ∧
      ∃ d ∈ domains, first.id ∈ d.memberAccelerators ∧ second.id ∈ d.memberAccelerators := by
  intro first second host domains
  obtain ⟨hids, hperm, -, hsame⟩ := @discover_partition ⟨none, none, true, 35⟩ host
    [first, second] (by decide) (by decide)
  have hlists : Lists host.sysfs [first, second] first.id second.id :=
    ⟨first, List.mem_cons_self, rfl, "0000:02:00.0", by decide, second, rfl, rfl⟩
  have hmem : first.id ∈ (discover ⟨none, none, true, 35⟩ host [first, second]).2.map
      Accelerator.id ∧ second.id ∈ (discover ⟨none, none, true, 35⟩ host [first, second]).2.map
      Accelerator.id := by
    rw [hids]
    exact ⟨by decide, by decide⟩
  obtain ⟨a, ha, hai⟩ := List.mem_map.mp hmem.1
  obtain ⟨b, hb, hbi⟩ := List.mem_map.mp hmem.2
  have hsame := hsame a ha b hb
  rw [hai, hbi] at hsame
  exact ⟨hperm, hsame.mpr (.rel _ _ hlists)⟩

end Domains

end Accelrd.Topology
