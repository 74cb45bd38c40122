import Mathlib.Tactic
import Accelrd.Library.Insertions
import Accelrd.Library.Rollup
import Accelrd.Topology.Labels

/-!
What the label set of a node says about a key.

* `getElem?_countBy`: the counts of the code, as the tally of a list.
* `labelGroups`: the insertions of `build`, in groups whose keys begin with one literal.
* `getElem?_labels`: a lookup looks at the groups whose literal is compatible with the
  key. Which these are is a closed fact about literals, `groupsNear`; the lookups that the
  readers of the labels make are read off from there.
-/

namespace Accelrd.Topology

open Std Sensors Insertions Rollup

/-! ### Counts -/

/-- How often a word occurs, if it does. -/
def tally (words : List String) (k : String) : Option ℕ :=
  if words.count k = 0 then none else some (words.count k)

/-- Amounts that are added up under their keys. -/
lemma getElem?_foldl_addCount (l : List (String × ℕ)) (counts : ExtTreeMap String ℕ)
    (k : String) :
    (l.foldl (fun counts e => addCount counts e.1 e.2) counts)[k]? =
      if valuesOf l k = [] then counts[k]?
      else some (counts.getD k 0 + (valuesOf l k).sum) := by
  induction l generalizing counts with
  | nil => rfl
  | cons e l ih =>
      rw [List.foldl_cons, ih, valuesOf_cons, addCount]
      by_cases hk : e.1 = k
      · subst hk
        by_cases hnil : valuesOf l e.1 = []
        · simp [hnil]
        · simp [hnil]
          omega
      · simp [hk, ExtTreeMap.getElem?_insert, ExtTreeMap.getD_insert]

lemma countBy_eq (accels : List Accelerator) (key : Accelerator → String) :
    countBy accels key
      = (accels.map fun a => (key a, 1)).foldl (fun counts e => addCount counts e.1 e.2) ∅ := by
  rw [List.foldl_map]
  rfl

lemma domainCounts_eq (domains : List FabricDomain) :
    domainCounts domains = (domains.map fun d => (d.id, d.memberAccelerators.length)).foldl
      (fun counts e => addCount counts e.1 e.2) ∅ := by
  rw [List.foldl_map]
  rfl

lemma valuesOf_ones (accels : List Accelerator) (key : Accelerator → String) (k : String) :
    valuesOf (accels.map fun a => (key a, 1)) k
      = List.replicate ((accels.map key).count k) 1 := by
  induction accels with
  | nil => rfl
  | cons a accels ih =>
      rw [List.map_cons, valuesOf_cons, ih, List.map_cons, List.count_cons]
      by_cases hk : key a = k
      · simp [hk, List.replicate_succ]
      · simp [hk]

/-- The counts of the code. -/
lemma getElem?_countBy (accels : List Accelerator) (key : Accelerator → String) (k : String) :
    (countBy accels key)[k]? = tally (accels.map key) k := by
  rw [countBy_eq, getElem?_foldl_addCount, valuesOf_ones, tally]
  simp

lemma tally_le_length {words : List String} {k : String} {n : ℕ} (h : tally words k = some n) :
    n ≤ words.length := by
  rw [tally] at h
  split_ifs at h
  obtain rfl := Option.some.inj h
  exact List.count_le_length

/-- A filter keeps places. -/
lemma filter_eq_map_range {α : Type} (l : List α) (d : α) (p : α → Bool) :
    l.filter p =
      ((List.range l.length).filter fun i => p (l.getD i d)).map fun i => l.getD i d := by
  have hl : (List.range l.length).map (fun i => l.getD i d) = l :=
    List.ext_getElem (by simp) fun i h₁ h₂ => by simp [h₂]
  calc l.filter p = ((List.range l.length).map fun i => l.getD i d).filter p := by rw [hl]
    _ = _ := List.filter_map

/-! ### The groups of labels -/

/-- The insertions of `build`, each group with a literal that its keys begin with. -/
def labelGroups (sysfs : Sysfs) (topology : NodeTopology) (accels : List Accelerator) :
    List (String × List (String × String)) :=
  [("accel-topo.lunnova.dev/block",
      (topology.block.map fun v => ("accel-topo.lunnova.dev/block", v)).toList),
    ("accel-topo.lunnova.dev/rack",
      (topology.rack.map fun v => ("accel-topo.lunnova.dev/rack", v)).toList),
    ("accel-topo.lunnova.dev/fabric-domain.",
      (domainCounts topology.fabricDomains).toList.map fun (id, count) =>
        ("accel-topo.lunnova.dev/fabric-domain." ++ id, toString count)),
    ("accel-topo.lunnova.dev/fabric-domains-count",
      [("accel-topo.lunnova.dev/fabric-domains-count", toString topology.fabricDomains.length)]),
    ("accel.lunnova.dev/vendor.",
      emitCountLabels "accel.lunnova.dev/vendor" (countBy accels fun a => a.id.vendor.slug)),
    ("accel.lunnova.dev/model.",
      emitCountLabels "accel.lunnova.dev/model" (countBy accels fun a => slugify a.model)),
    ("accel.lunnova.dev/memory-kind.",
      emitCountLabels "accel.lunnova.dev/memory-kind" (countBy accels fun a => a.memoryKind.slug)),
    ("accel.lunnova.dev/vendor.",
      (physicalFuncs accels).toList.map fun (vendor, funcs) =>
        ("accel.lunnova.dev/vendor." ++ vendor ++ ".physical-count", toString funcs.length)),
    ("accel.lunnova.dev/total-count",
      [("accel.lunnova.dev/total-count", toString accels.length)]),
    ("accel.lunnova.dev/sriov.",
      match sriov sysfs accels with
      | none => []
      | some (total, used) => [("accel.lunnova.dev/sriov.total", toString total),
          ("accel.lunnova.dev/sriov.configured", toString used)]),
    ("accel-net.lunnova.dev/rdma",
      if topology.rdma.anyActiveRoce then [("accel-net.lunnova.dev/rdma", "present")] else []),
    ("accel-net.lunnova.dev/rdma.devices-count",
      if topology.rdma.isEmpty then []
      else [("accel-net.lunnova.dev/rdma.devices-count", toString topology.rdma.devices.length)]),
    ("accel-topo.lunnova.dev/lldp.chassis", lldpLabels topology.lldpNeighbors)]

lemma labelEntries_eq (sysfs : Sysfs) (topology : NodeTopology) (accels : List Accelerator) :
    labelEntries sysfs topology accels
      = (labelGroups sysfs topology accels).flatMap Prod.snd := by
  simp only [labelGroups, List.flatMap_cons, List.flatMap_nil, List.append_nil,
    ← List.append_assoc]
  rfl

/-- The literals of the groups, in their order. -/
def labelLiterals : List String :=
  ["accel-topo.lunnova.dev/block", "accel-topo.lunnova.dev/rack",
    "accel-topo.lunnova.dev/fabric-domain.", "accel-topo.lunnova.dev/fabric-domains-count",
    "accel.lunnova.dev/vendor.", "accel.lunnova.dev/model.", "accel.lunnova.dev/memory-kind.",
    "accel.lunnova.dev/vendor.", "accel.lunnova.dev/total-count", "accel.lunnova.dev/sriov.",
    "accel-net.lunnova.dev/rdma", "accel-net.lunnova.dev/rdma.devices-count",
    "accel-topo.lunnova.dev/lldp.chassis"]

/-- The groups in which a key that begins with the given word may be. -/
def groupsNear (q : String) : List ℕ :=
  (List.range labelLiterals.length).filter fun i =>
    decide (Text.Compatible (labelLiterals.getD i "") q)

/-- The words that lookups begin with, and the places of the groups near them. -/
def nearPlaces : List (String × List ℕ) :=
  [("accel-topo.lunnova.dev/block", [0]), ("accel-topo.lunnova.dev/rack", [1]),
    ("accel-topo.lunnova.dev/fabric-domain.", [2]),
    ("accel-topo.lunnova.dev/fabric-domains-count", [3]), ("accel.lunnova.dev/vendor.", [4, 7]),
    ("accel.lunnova.dev/model.", [5]), ("accel.lunnova.dev/memory-kind.", [6]),
    ("accel.lunnova.dev/total-count", [8]), ("accel-net.lunnova.dev/rdma", [10, 11])]

lemma groupsNear_of_mem : ∀ e ∈ nearPlaces, groupsNear e.1 = e.2 := by decide +kernel

/-- One row of the table. -/
lemma groupsNear_eq {q : String} {places : List ℕ} (i : ℕ)
    (h : nearPlaces[i]? = some (q, places)) : groupsNear q = places :=
  groupsNear_of_mem _ (List.mem_of_getElem? h)

lemma startsWith_cons {key value p : String} {l : List (String × String)}
    (hkey : Text.startsWith key p) (hl : ∀ e ∈ l, Text.startsWith e.1 p) :
    ∀ e ∈ (key, value) :: l, Text.startsWith e.1 p := List.forall_mem_cons.mpr ⟨hkey, hl⟩

lemma startsWith_singleton {key value p : String} (hkey : Text.startsWith key p) :
    ∀ e ∈ [(key, value)], Text.startsWith e.1 p := startsWith_cons hkey (List.forall_mem_nil _)

lemma startsWith_emitCountLabels (pre : String) (counts : ExtTreeMap String ℕ) :
    ∀ e ∈ emitCountLabels pre counts, Text.startsWith e.1 (pre ++ ".") := by
  intro e he
  obtain ⟨⟨key, count⟩, -, rfl⟩ := List.mem_map.mp he
  exact Text.startsWith_trans (Text.startsWith_append _ ".count") (Text.startsWith_append _ key)

lemma startsWith_lldpLabels (neighbors : List LldpNeighbor) :
    ∀ e ∈ lldpLabels neighbors, Text.startsWith e.1 "accel-topo.lunnova.dev/lldp.chassis" := by
  rw [lldpLabels]
  split_ifs
  · simp
  · refine List.forall_mem_append.mpr ⟨fun e he => ?_, ?_⟩
    · obtain ⟨n, -, rfl⟩ := List.mem_map.mp he
      exact Text.startsWith_trans (Text.startsWith_append _ _) (by decide)
    · exact startsWith_singleton (by decide)

/-- The keys of a group begin with its literal. -/
lemma startsWith_of_mem_labelGroups {sysfs : Sysfs} {topology : NodeTopology}
    {accels : List Accelerator} :
    ∀ g ∈ labelGroups sysfs topology accels, ∀ e ∈ g.2, Text.startsWith e.1 g.1 := by
  have hoption (o : Option String) (key : String) (hkey : Text.startsWith key key) :
      ∀ e ∈ (o.map fun v => (key, v)).toList, Text.startsWith e.1 key := by
    cases o <;> simp [hkey]
  simp only [labelGroups, List.forall_mem_cons, List.not_mem_nil, false_imp_iff, implies_true,
    and_true]
  refine ⟨hoption _ _ (by decide), hoption _ _ (by decide), ?domains, by decide,
    startsWith_emitCountLabels _ _, startsWith_emitCountLabels _ _, startsWith_emitCountLabels _ _,
    ?physical, by decide, ?sriov, ?rdma, ?devices, startsWith_lldpLabels _⟩
  case domains =>
    intro e he
    obtain ⟨⟨id, count⟩, -, rfl⟩ := List.mem_map.mp he
    exact Text.startsWith_append _ _
  case physical =>
    intro e he
    obtain ⟨⟨vendor, funcs⟩, -, rfl⟩ := List.mem_map.mp he
    exact Text.startsWith_trans (Text.startsWith_append _ _) (Text.startsWith_append _ _)
  case sriov =>
    cases sriov sysfs accels with
    | none => exact List.forall_mem_nil _
    | some p => exact startsWith_cons (by decide) (startsWith_singleton (by decide))
  case rdma =>
    split_ifs
    · exact startsWith_singleton (by decide)
    · exact List.forall_mem_nil _
  case devices =>
    split_ifs
    · exact List.forall_mem_nil _
    · exact startsWith_singleton (by decide)

/-! ### Lookups -/

section Lookups

variable (sysfs : Sysfs) (topology : NodeTopology) (accels : List Accelerator)

/-- The insertions whose keys may begin like the given word. -/
def labelsNear (q : String) : List (String × String) :=
  ((labelGroups sysfs topology accels).filter fun g => decide (Text.Compatible g.1 q)).flatMap
    Prod.snd

/-- The groups near a word, by their places: which ones these are depends on the literals
only. -/
lemma labelsNear_eq {q : String} {places : List ℕ} (h : groupsNear q = places) :
    labelsNear sysfs topology accels q
      = places.flatMap fun i => ((labelGroups sysfs topology accels).getD i ("", [])).2 := by
  have hliteral (i : ℕ) : labelLiterals.getD i ""
      = ((labelGroups sysfs topology accels).getD i ("", [])).1 := by
    have hmap : labelLiterals = (labelGroups sysfs topology accels).map Prod.fst := rfl
    rw [hmap, List.getD_eq_getElem?_getD, List.getD_eq_getElem?_getD, List.getElem?_map]
    cases (labelGroups sysfs topology accels)[i]? <;> rfl
  rw [← h, groupsNear, labelsNear, filter_eq_map_range _ ("", []), List.flatMap_map]
  simp only [hliteral]
  rfl

/-- **A lookup looks at the compatible groups.** -/
lemma getElem?_labels {k q : String} (hk : Text.startsWith k q) :
    (build sysfs topology accels).labels[k]?
      = (ExtTreeMap.ofList (labelsNear sysfs topology accels q))[k]? := by
  rw [build, labelEntries_eq]
  refine getElem?_ofList_flatMap_filter fun g hg hq e he hek => ?_
  have he' := startsWith_of_mem_labelGroups g hg e he
  rw [hek] at he'
  exact (decide_eq_false_iff_not.mp hq) (Text.compatible_of_startsWith he' hk)

/-- A lookup near one group only. -/
lemma getElem?_labels_at {k q : String} (i : ℕ) (hk : Text.startsWith k q)
    (h : groupsNear q = [i]) :
    (build sysfs topology accels).labels[k]?
      = (ExtTreeMap.ofList ((labelGroups sysfs topology accels).getD i ("", [])).2)[k]? := by
  rw [getElem?_labels sysfs topology accels hk, labelsNear_eq sysfs topology accels h,
    List.flatMap_singleton]

lemma getElem?_labels_block :
    (build sysfs topology accels).labels["accel-topo.lunnova.dev/block"]?
      = topology.block := by
  have hnear : groupsNear "accel-topo.lunnova.dev/block" = [0] := groupsNear_eq 0 rfl
  rw [getElem?_labels_at sysfs topology accels 0 (by decide) hnear]
  show (ExtTreeMap.ofList
    (topology.block.map fun v => ("accel-topo.lunnova.dev/block", v)).toList)[_]? = _
  cases topology.block <;> simp

lemma getElem?_labels_rack :
    (build sysfs topology accels).labels["accel-topo.lunnova.dev/rack"]?
      = topology.rack := by
  have hnear : groupsNear "accel-topo.lunnova.dev/rack" = [1] := groupsNear_eq 1 rfl
  rw [getElem?_labels_at sysfs topology accels 1 (by decide) hnear]
  show (ExtTreeMap.ofList
    (topology.rack.map fun v => ("accel-topo.lunnova.dev/rack", v)).toList)[_]? = _
  cases topology.rack <;> simp

lemma getElem?_labels_fabricDomainsCount :
    (build sysfs topology accels).labels["accel-topo.lunnova.dev/fabric-domains-count"]?
      = some (toString topology.fabricDomains.length) := by
  have hnear : groupsNear "accel-topo.lunnova.dev/fabric-domains-count" = [3] := groupsNear_eq 3 rfl
  rw [getElem?_labels_at sysfs topology accels 3 (by decide) hnear]
  show (ExtTreeMap.ofList [("accel-topo.lunnova.dev/fabric-domains-count",
    toString topology.fabricDomains.length)])[_]? = _
  simp

lemma getElem?_labels_totalCount :
    (build sysfs topology accels).labels["accel.lunnova.dev/total-count"]?
      = some (toString accels.length) := by
  have hnear : groupsNear "accel.lunnova.dev/total-count" = [8] := groupsNear_eq 7 rfl
  rw [getElem?_labels_at sysfs topology accels 8 (by decide) hnear]
  show (ExtTreeMap.ofList [("accel.lunnova.dev/total-count", toString accels.length)])[_]? = _
  simp

lemma getElem?_labels_rdma :
    (build sysfs topology accels).labels["accel-net.lunnova.dev/rdma"]?
      = if topology.rdma.anyActiveRoce then some "present" else none := by
  have hnear : groupsNear "accel-net.lunnova.dev/rdma" = [10, 11] := groupsNear_eq 8 rfl
  have hgroups : labelsNear sysfs topology accels "accel-net.lunnova.dev/rdma"
      = (if topology.rdma.anyActiveRoce then [("accel-net.lunnova.dev/rdma", "present")] else []) ++
        if topology.rdma.isEmpty then []
        else [("accel-net.lunnova.dev/rdma.devices-count",
          toString topology.rdma.devices.length)] := by
    rw [labelsNear_eq sysfs topology accels hnear, List.flatMap_cons, List.flatMap_singleton]
    rfl
  have hdevices : (ExtTreeMap.ofList (if topology.rdma.isEmpty then [] else
      [("accel-net.lunnova.dev/rdma.devices-count", toString topology.rdma.devices.length)])
        : StrMap)["accel-net.lunnova.dev/rdma"]? = none :=
    getElem?_ofList_eq_none (by split_ifs <;> simp)
  rw [getElem?_labels sysfs topology accels (q := "accel-net.lunnova.dev/rdma") (by decide),
    hgroups, getElem?_ofList_append, hdevices, Option.none_or]
  split_ifs <;> simp

/-- A group of counts. -/
lemma getElem?_ofList_emitCountLabels (pre key : String) (counts : ExtTreeMap String ℕ) :
    (ExtTreeMap.ofList (emitCountLabels pre counts))[pre ++ "." ++ key ++ ".count"]?
      = counts[key]?.map toString := by
  refine getElem?_ofList_map_toList (f := fun key => pre ++ "." ++ key ++ ".count") ?_ toString
    counts key
  intro key key' h
  simpa using h

/-- A group of counts that stands alone under its prefix. -/
lemma getElem?_labels_counts {pre : String} {counts : ExtTreeMap String ℕ} (i : ℕ)
    (hnear : groupsNear (pre ++ ".") = [i])
    (hgroup : ((labelGroups sysfs topology accels).getD i ("", [])).2 = emitCountLabels pre counts)
    (key : String) :
    (build sysfs topology accels).labels[pre ++ "." ++ key ++ ".count"]?
      = counts[key]?.map toString := by
  have hstarts : Text.startsWith (pre ++ "." ++ key ++ ".count") (pre ++ ".") :=
    Text.startsWith_trans (Text.startsWith_append _ _) (Text.startsWith_append _ _)
  rw [getElem?_labels_at sysfs topology accels i hstarts hnear, hgroup]
  exact getElem?_ofList_emitCountLabels _ _ _

lemma getElem?_labels_model (key : String) :
    (build sysfs topology accels).labels["accel.lunnova.dev/model" ++ "." ++ key ++ ".count"]?
      = (tally (accels.map fun a => slugify a.model) key).map toString := by
  rw [← getElem?_countBy]
  exact getElem?_labels_counts sysfs topology accels 5 (groupsNear_eq 5 rfl) rfl key

lemma getElem?_labels_memoryKind (key : String) :
    (build sysfs topology accels).labels["accel.lunnova.dev/memory-kind" ++ "." ++ key ++ ".count"]?
      = (countBy accels fun a => a.memoryKind.slug)[key]?.map toString :=
  getElem?_labels_counts sysfs topology accels 6 (groupsNear_eq 6 rfl) rfl key

lemma getElem?_labels_fabricDomain (id : String) :
    (build sysfs topology accels).labels["accel-topo.lunnova.dev/fabric-domain." ++ id]?
      = (domainCounts topology.fabricDomains)[id]?.map toString := by
  have hnear : groupsNear "accel-topo.lunnova.dev/fabric-domain." = [2] := groupsNear_eq 2 rfl
  rw [getElem?_labels_at sysfs topology accels 2 (Text.startsWith_append _ id) hnear]
  exact getElem?_ofList_map_toList (f := fun id => "accel-topo.lunnova.dev/fabric-domain." ++ id)
    (fun a b h => by simpa using h) toString (domainCounts topology.fabricDomains) id

/-- The counts of physical cards stand beside the counts of accelerators. -/
lemma labelsNear_vendor :
    labelsNear sysfs topology accels "accel.lunnova.dev/vendor."
      = emitCountLabels "accel.lunnova.dev/vendor" (countBy accels fun a => a.id.vendor.slug) ++
        (physicalFuncs accels).toList.map fun (vendor, funcs) =>
          ("accel.lunnova.dev/vendor." ++ vendor ++ ".physical-count", toString funcs.length) := by
  have hnear : groupsNear "accel.lunnova.dev/vendor." = [4, 7] := groupsNear_eq 4 rfl
  rw [labelsNear_eq sysfs topology accels hnear, List.flatMap_cons, List.flatMap_singleton]
  rfl

/-- Their keys end differently. -/
lemma count_ne_physicalCount (key vendor : String) :
    "accel.lunnova.dev/vendor." ++ vendor ++ ".physical-count"
      ≠ "accel.lunnova.dev/vendor" ++ "." ++ key ++ ".count" := by
  intro heq
  have hlast := congrArg (fun s : String => s.toList.reverse.take 6) heq
  simp [String.toList_append] at hlast

lemma getElem?_labels_vendor (key : String) :
    (build sysfs topology accels).labels["accel.lunnova.dev/vendor" ++ "." ++ key ++ ".count"]?
      = (tally (accels.map fun a => a.id.vendor.slug) key).map toString := by
  have hstarts : Text.startsWith ("accel.lunnova.dev/vendor" ++ "." ++ key ++ ".count")
      "accel.lunnova.dev/vendor." :=
    Text.startsWith_trans (Text.startsWith_append _ _) (Text.startsWith_append _ _)
  rw [getElem?_labels sysfs topology accels hstarts, labelsNear_vendor, getElem?_ofList_append,
    getElem?_ofList_eq_none, Option.none_or, getElem?_ofList_emitCountLabels, getElem?_countBy]
  intro e he
  obtain ⟨⟨vendor, funcs⟩, -, rfl⟩ := List.mem_map.mp he
  exact count_ne_physicalCount key vendor

lemma getElem?_labels_physicalCount (vendor : String) :
    (build sysfs topology accels).labels[
        "accel.lunnova.dev/vendor." ++ vendor ++ ".physical-count"]?
      = (physicalFuncs accels)[vendor]?.map fun funcs => toString funcs.length := by
  have hstarts : Text.startsWith ("accel.lunnova.dev/vendor." ++ vendor ++ ".physical-count")
      "accel.lunnova.dev/vendor." :=
    Text.startsWith_trans (Text.startsWith_append _ _) (Text.startsWith_append _ _)
  have hgroup := getElem?_ofList_map_toList
    (f := fun vendor => "accel.lunnova.dev/vendor." ++ vendor ++ ".physical-count")
    (fun a b h => by simpa using h) (fun funcs : List Path => toString funcs.length)
    (physicalFuncs accels) vendor
  rw [getElem?_labels sysfs topology accels hstarts, labelsNear_vendor, getElem?_ofList_append]
  refine (congrArg₂ Option.or hgroup (getElem?_ofList_eq_none fun e he heq => ?_)).trans
    Option.or_none
  obtain ⟨⟨key, count⟩, -, rfl⟩ := List.mem_map.mp he
  exact count_ne_physicalCount key vendor heq.symm

end Lookups

end Accelrd.Topology
