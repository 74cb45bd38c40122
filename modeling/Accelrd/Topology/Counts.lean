import Mathlib.Tactic
import Std.Data.String.ToNat
import Accelrd.Topology.LabelForm

/-!
The counts that a node publishes: each way of counting the accelerators counts all of them.

* `labelCounts`: the numbers under the keys between a prefix and a suffix.
* `labelCounts_perm`: for the labels of a count these are its values.
* `sum_foldl_addCount`: a count adds up to what was counted, whatever keys coincide.
* `discover_conserves`: the labels of a node after `discover`.
-/

namespace Accelrd.Topology

open Std Sensors Insertions Rollup

/-! ### Reading the counts -/

/-- The number under a label, if its key lies between a prefix and a suffix. -/
def readBetween (pre suffix : String) (e : String × String) : Option (String × ℕ) := do
  let rest ← Text.stripPrefix e.1 pre
  let key ← Text.stripSuffix rest suffix
  let count ← e.2.toNat?
  some (key, count)

/-- The numbers under the labels between a prefix and a suffix. -/
def labelCounts (labels : StrMap) (pre suffix : String) : List ℕ :=
  (labels.toList.filterMap (readBetween pre suffix)).map Prod.snd

lemma readBetween_eq_some_iff {pre suffix : String} {e : String × String} {key : String} {n : ℕ} :
    readBetween pre suffix e = some (key, n) ↔
      e.1 = pre ++ key ++ suffix ∧ e.2.toNat? = some n := by
  simp only [readBetween, Option.bind_eq_bind, Option.bind_eq_some_iff,
    Text.stripPrefix_eq_some_iff, Text.stripSuffix_eq_some_iff, Option.some.injEq, Prod.mk.injEq]
  constructor
  · rintro ⟨rest, hrest, key', rfl, count, hcount, rfl, rfl⟩
    exact ⟨hrest.trans String.append_assoc.symm, hcount⟩
  · rintro ⟨hkey, hcount⟩
    exact ⟨key ++ suffix, hkey.trans String.append_assoc, key, rfl, n, hcount, rfl, rfl⟩

/-- Different keys of the map are read as different words. -/
lemma nodup_readBetween (labels : StrMap) (pre suffix : String) :
    (labels.toList.filterMap (readBetween pre suffix)).Nodup := by
  rw [List.Nodup, List.pairwise_filterMap]
  refine ExtTreeMap.distinct_keys_toList.imp ?_
  intro e e' hne c hc c' hc' heq
  subst heq
  obtain ⟨hkey, -⟩ := readBetween_eq_some_iff.mp hc
  obtain ⟨hkey', -⟩ := readBetween_eq_some_iff.mp hc'
  exact hne (Std.compare_eq_iff_eq.mpr (hkey.trans hkey'.symm))

/-- **The labels of a count** are read as its values. -/
lemma labelCounts_perm {labels : StrMap} {pre suffix : String} {counts : ExtTreeMap String ℕ}
    (h : ∀ key, labels[pre ++ key ++ suffix]? = counts[key]?.map toString) :
    (labelCounts labels pre suffix).Perm (counts.toList.map Prod.snd) := by
  refine List.Perm.map Prod.snd ((List.perm_ext_iff_of_nodup (nodup_readBetween _ _ _)
    (nodup_toList counts)).mpr fun c => ?_)
  obtain ⟨key, n⟩ := c
  rw [ExtTreeMap.mem_toList_iff_getElem?_eq_some, List.mem_filterMap]
  constructor
  · rintro ⟨⟨k, v⟩, hmem, hread⟩
    obtain ⟨rfl, hn⟩ := readBetween_eq_some_iff.mp hread
    rw [ExtTreeMap.mem_toList_iff_getElem?_eq_some, h, Option.map_eq_some_iff] at hmem
    obtain ⟨m, hm, rfl⟩ := hmem
    rw [hm]
    exact (Nat.toNat?_repr m).symm.trans hn
  · intro hn
    refine ⟨(pre ++ key ++ suffix, toString n), ?_, readBetween_eq_some_iff.mpr
      ⟨rfl, Nat.toNat?_repr n⟩⟩
    rw [ExtTreeMap.mem_toList_iff_getElem?_eq_some, h, hn]
    rfl

/-! ### Sums -/

/-- **A count adds up** to the amounts that were counted. -/
theorem sum_foldl_addCount (l : List (String × ℕ)) :
    ((l.foldl (fun counts e => addCount counts e.1 e.2) ∅).toList.map Prod.snd).sum
      = (l.map Prod.snd).sum := by
  have hperm : (l.foldl (fun counts e => addCount counts e.1 e.2) ∅).toList.Perm
      ((l.map Prod.fst).dedup.map fun k => (k, (valuesOf l k).sum)) := by
    refine (List.perm_ext_iff_of_nodup (nodup_toList _)
      ((List.nodup_dedup _).map fun k k' h => congrArg Prod.fst h)).mpr fun c => ?_
    obtain ⟨k, n⟩ := c
    have hkey := valuesOf_eq_nil_iff (l := l) (k := k)
    rw [ExtTreeMap.mem_toList_iff_getElem?_eq_some, getElem?_foldl_addCount, List.mem_map]
    constructor
    · intro hlookup
      split_ifs at hlookup with hnil
      · simp at hlookup
      · rw [ExtTreeMap.getD_empty, Nat.zero_add] at hlookup
        have hmem : k ∈ l.map Prod.fst := not_not.mp (hkey.not.mp hnil)
        exact ⟨k, List.mem_dedup.mpr hmem, Prod.ext rfl (Option.some.inj hlookup)⟩
    · rintro ⟨k', hmem, heq⟩
      obtain ⟨rfl, rfl⟩ := Prod.mk.inj heq
      rw [if_neg fun hnil => hkey.mp hnil (List.mem_dedup.mp hmem), ExtTreeMap.getD_empty,
        Nat.zero_add]
  rw [(hperm.map Prod.snd).sum_eq, List.map_map]
  exact sum_map_sum_valuesOf (List.nodup_dedup _) fun e he =>
    List.mem_dedup.mpr (List.mem_map_of_mem he)

/-- Each accelerator is counted once. -/
lemma sum_countBy (accels : List Accelerator) (key : Accelerator → String) :
    ((countBy accels key).toList.map Prod.snd).sum = accels.length := by
  rw [countBy_eq, sum_foldl_addCount, List.map_map]
  have hones : accels.map (Prod.snd ∘ fun a => (key a, 1)) = List.replicate accels.length 1 :=
    List.map_const'
  rw [hones, List.sum_replicate, smul_eq_mul, mul_one]

/-- Each member of a domain is counted once, whatever ids coincide. -/
lemma sum_domainCounts (domains : List FabricDomain) :
    ((domainCounts domains).toList.map Prod.snd).sum
      = (domains.flatMap FabricDomain.memberAccelerators).length := by
  rw [domainCounts_eq, sum_foldl_addCount, List.map_map, List.length_flatMap]
  rfl

/-! ### Physical cards -/

/-- A vendor whose device has a parent directory has a physical card. -/
lemma exists_physicalFuncs {accels : List Accelerator} {a : Accelerator} (ha : a ∈ accels)
    (hdir : a.deviceDir ≠ []) :
    ∃ funcs, (physicalFuncs accels)[a.id.vendor.slug]? = some funcs := by
  induction accels using List.reverseRecOn with
  | nil => exact absurd ha List.not_mem_nil
  | append_singleton accels b ih =>
      cases hparent : b.deviceDir.parent with
      | none =>
          rw [physicalFuncs_append_of_none hparent]
          rcases List.mem_append.mp ha with ha | ha
          · exact ih ha
          · obtain rfl := List.mem_singleton.mp ha
            obtain ⟨c, cs, hcons⟩ := List.exists_cons_of_ne_nil hdir
            rw [hcons] at hparent
            exact absurd hparent (Option.some_ne_none _)
      | some parent =>
          rw [physicalFuncs_append_of_some hparent, ExtTreeMap.getElem?_insert]
          split_ifs with hslug
          · exact ⟨_, rfl⟩
          · rcases List.mem_append.mp ha with ha | ha
            · exact ih ha
            · obtain rfl := List.mem_singleton.mp ha
              exact absurd compare_self hslug

/-! ### The labels of a node -/

/-- The counts among the labels of a node with `total` accelerators. -/
structure Conserved (labels : StrMap) (total : ℕ) : Prop where
  totalCount : labels["accel.lunnova.dev/total-count"]? = some (toString total)
  vendors : (labelCounts labels "accel.lunnova.dev/vendor." ".count").sum = total
  models : (labelCounts labels "accel.lunnova.dev/model." ".count").sum = total
  memoryKinds : (labelCounts labels "accel.lunnova.dev/memory-kind." ".count").sum = total
  fabricDomains : (labelCounts labels "accel-topo.lunnova.dev/fabric-domain." "").sum = total

section Build

variable {sysfs : Sysfs} {topology : NodeTopology} {accels : List Accelerator}

/-- **The counts of a label set**, for domains that have as many members as there are
accelerators. -/
lemma conserved_build
    (h : (topology.fabricDomains.flatMap FabricDomain.memberAccelerators).length
      = accels.length) : Conserved (build sysfs topology accels).labels accels.length where
  totalCount := getElem?_labels_totalCount sysfs topology accels
  vendors := by
    have hperm : (labelCounts (build sysfs topology accels).labels "accel.lunnova.dev/vendor."
        ".count").Perm ((countBy accels fun a => a.id.vendor.slug).toList.map Prod.snd) :=
      labelCounts_perm fun key => (getElem?_labels_vendor sysfs topology accels key).trans
        (congrArg _ (getElem?_countBy accels _ key).symm)
    exact hperm.sum_eq.trans (sum_countBy accels _)
  models := by
    have hperm : (labelCounts (build sysfs topology accels).labels "accel.lunnova.dev/model."
        ".count").Perm ((countBy accels fun a => slugify a.model).toList.map Prod.snd) :=
      labelCounts_perm fun key => (getElem?_labels_model sysfs topology accels key).trans
        (congrArg _ (getElem?_countBy accels _ key).symm)
    exact hperm.sum_eq.trans (sum_countBy accels _)
  memoryKinds := by
    have hperm : (labelCounts (build sysfs topology accels).labels "accel.lunnova.dev/memory-kind."
        ".count").Perm ((countBy accels fun a => a.memoryKind.slug).toList.map Prod.snd) :=
      labelCounts_perm (getElem?_labels_memoryKind sysfs topology accels)
    exact hperm.sum_eq.trans (sum_countBy accels _)
  fabricDomains := by
    have hperm : (labelCounts (build sysfs topology accels).labels
        "accel-topo.lunnova.dev/fabric-domain." "").Perm
          ((domainCounts topology.fabricDomains).toList.map Prod.snd) :=
      labelCounts_perm fun id => by rw [String.append_empty, getElem?_labels_fabricDomain]
    exact hperm.sum_eq.trans ((sum_domainCounts _).trans h)

/-- The physical cards of a vendor are no more than its accelerators. -/
lemma physicalCount_le {a : Accelerator} (ha : a ∈ accels) (hdir : a.deviceDir ≠ []) :
    ∃ physical count : ℕ,
      (build sysfs topology accels).labels[
        "accel.lunnova.dev/vendor." ++ a.id.vendor.slug ++ ".physical-count"]?
          = some (toString physical) ∧
      (build sysfs topology accels).labels[
        "accel.lunnova.dev/vendor." ++ a.id.vendor.slug ++ ".count"]? = some (toString count) ∧
      1 ≤ physical ∧ physical ≤ count := by
  obtain ⟨funcs, hfuncs⟩ := exists_physicalFuncs ha hdir
  obtain ⟨-, hpos, hle⟩ := physicalFuncs_spec hfuncs
  refine ⟨funcs.length, _, ?_, ?_, hpos, hle⟩
  · rw [getElem?_labels_physicalCount, hfuncs]
    rfl
  · refine (getElem?_labels_vendor sysfs topology accels a.id.vendor.slug).trans ?_
    rw [tally, if_neg (by omega)]
    rfl

end Build

section Discovered

variable {args : Resolved} {host : Host} {accels : List Accelerator}

/-- After `discover` the counts of each kind add up to the number of accelerators. -/
lemma conserved_discover (hids : (accels.map Accelerator.id).Nodup)
    (hfresh : ∀ a ∈ accels, a.fabricDomain = none) :
    Conserved (discoveredLabels args host accels) accels.length := by
  have hmembers := (@discover_placement args host accels hids).members_perm hids
    fun a ha => Or.inl (hfresh a ha)
  have hlength : (discover args host accels).2.length = accels.length := by
    simpa using congrArg List.length
      (@map_discover args host accels _ Accelerator.id fun _ _ => rfl)
  have hconserved := @conserved_build host.sysfs (discover args host accels).1
    (discover args host accels).2
  rw [hlength] at hconserved
  exact hconserved (by rw [hmembers.length_eq, List.length_map])

/-- **No accelerator is lost in the labels.** After `discover` the counts by vendor, by model,
by memory kind and by fabric domain each add up to the number of accelerators, and a vendor has
at least one physical card and no more than accelerators. -/
theorem discover_conserves (hids : (accels.map Accelerator.id).Nodup)
    (hfresh : ∀ a ∈ accels, a.fabricDomain = none) :
    Conserved (discoveredLabels args host accels) accels.length ∧
    ∀ a ∈ accels, a.deviceDir ≠ [] → ∃ physical count : ℕ,
      (discoveredLabels args host accels)[
        "accel.lunnova.dev/vendor." ++ a.id.vendor.slug ++ ".physical-count"]?
          = some (toString physical) ∧
      (discoveredLabels args host accels)[
        "accel.lunnova.dev/vendor." ++ a.id.vendor.slug ++ ".count"]? = some (toString count) ∧
      1 ≤ physical ∧ physical ≤ count := by
  refine ⟨conserved_discover hids hfresh, fun a ha hdirs => ?_⟩
  have hfields : (discover args host accels).2.map (fun a => (a.id, a.deviceDir))
      = accels.map fun a => (a.id, a.deviceDir) := map_discover args host fun _ _ => rfl
  have hmem : (a.id, a.deviceDir) ∈ (discover args host accels).2.map
      fun a => (a.id, a.deviceDir) := by
    rw [hfields]
    exact List.mem_map_of_mem ha
  obtain ⟨b, hb, heq⟩ := List.mem_map.mp hmem
  obtain ⟨hid, hdir⟩ := Prod.mk.inj heq
  have hle := @physicalCount_le host.sysfs (discover args host accels).1 _ b hb
    (hdir ▸ hdirs)
  rwa [hid] at hle

/-- Two virtual functions of one card whose models have one slug. -/
theorem discover_conserves_pair :
    let first := { bareCard ⟨.amd, 0, "0000:01:00.0"⟩ ["pci", "vf0"] with model := "MI 300" }
    let second := { bareCard ⟨.amd, 1, "0000:01:00.1"⟩ ["pci", "vf1"] with model := "mi-300" }
    let host := bareHost (fun _ => none) fun _ => 0
    (labelCounts (discoveredLabels ⟨none, none, true, 35⟩ host [first, second])
      "accel.lunnova.dev/model." ".count").sum = 2 := by
  intro first second host
  exact (@discover_conserves ⟨none, none, true, 35⟩ host [first, second] (by decide)
    (by decide)).1.models

end Discovered

end Accelrd.Topology
