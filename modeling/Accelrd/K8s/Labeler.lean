import Mathlib.Tactic
import Accelrd.Library.Ownership
import Accelrd.Library.Text
import Accelrd.Topology.Labels

/-!
`src/k8s/labeler.rs`: the patch that makes the keys of a node that the daemon owns equal
to the set it wants.

* `mergedSection`, `buildMergePatch`: the patch as the code builds it.
* `mergedSection_of_desired`, `mergedSection_of_stale`, `mergedSection_eq_none`: what the
  patch says about a key.
* `Settled`: the patch would leave the node with the wanted keys and no others among those
  of the daemon, and it does not touch the rest. `Settled.congr` and `Settled.again` are the
  reason why a patch built from a snapshot may be sent later, and more than once.
-/

namespace Accelrd.K8s

open Std Kube Ownership Accelrd.Topology

/-! ### The patch -/

/-- `MANAGED_PREFIXES`. -/
def managedPrefixes : List String :=
  ["accel.lunnova.dev/", "accel-topo.lunnova.dev/", "accel-ready.lunnova.dev/",
    "accel-net.lunnova.dev/"]

/-- `is_managed`. -/
def isManaged (key : String) : Bool := managedPrefixes.any fun p => Text.startsWith key p

/-- The keys of a section that the daemon owns and no longer wants. -/
def staleKeys (current : Option StrMap) (desired : StrMap) : List String :=
  match current with
  | none => []
  | some cur => cur.keys.filter fun k => isManaged k && !desired.contains k

/-- The insertions of `merged_section`. -/
def sectionEntries (current : Option StrMap) (desired : StrMap) : List (String × Option String) :=
  (staleKeys current desired).map (fun k => (k, none)) ++
    desired.toList.map fun (k, v) => (k, some v)

/-- `merged_section`. -/
def mergedSection (current : Option StrMap) (desired : StrMap) : MergePatch String String :=
  ExtTreeMap.ofList (sectionEntries current desired)

/-- `build_merge_patch`. -/
def buildMergePatch (current : ObjectMeta) (desired : LabelSet) : MetaPatch where
  labels := some (mergedSection current.labels desired.labels)
  annotations := some (mergedSection current.annotations desired.annotations)

/-! ### What the patch says -/

lemma mem_staleKeys {current : Option StrMap} {desired : StrMap} {k : String} :
    k ∈ staleKeys current desired ↔ k ∈ current.getD ∅ ∧ isManaged k ∧ k ∉ desired := by
  cases current with
  | none => simp [staleKeys]
  | some cur =>
      simp only [staleKeys, List.mem_filter, ExtTreeMap.mem_keys, Option.getD_some,
        Bool.and_eq_true, Bool.not_eq_true', ← ExtTreeMap.contains_iff_mem, Bool.not_eq_true]

lemma map_fst_sectionEntries (current : Option StrMap) (desired : StrMap) :
    (sectionEntries current desired).map Prod.fst = staleKeys current desired ++ desired.keys := by
  rw [sectionEntries, List.map_append, List.map_map, List.map_map,
    ← ExtTreeMap.map_fst_toList_eq_keys]
  exact congrArg (· ++ _) (List.map_id _)

/-- The patch speaks once about each key. -/
lemma nodup_sectionEntries (current : Option StrMap) (desired : StrMap) :
    ((sectionEntries current desired).map Prod.fst).Nodup := by
  rw [map_fst_sectionEntries]
  refine List.Nodup.append ?_ ExtTreeMap.nodup_keys fun k hk hk' => ?_
  · cases current with
    | none => exact List.nodup_nil
    | some cur => exact ExtTreeMap.nodup_keys.filter _
  · exact (mem_staleKeys.mp hk).2.2 (ExtTreeMap.mem_keys.mp hk')

/-- A wanted key is set. -/
lemma mergedSection_of_desired {current : Option StrMap} {desired : StrMap} {k v : String}
    (h : desired[k]? = some v) : (mergedSection current desired)[k]? = some (some v) :=
  MergePatch.getElem?_ofList_of_nodup (nodup_sectionEntries current desired)
    (List.mem_append_right _ (List.mem_map.mpr
      ⟨(k, v), ExtTreeMap.mem_toList_iff_getElem?_eq_some.mpr h, rfl⟩))

/-- A stale key is deleted. -/
lemma mergedSection_of_stale {current : Option StrMap} {desired : StrMap} {k : String}
    (h : k ∈ staleKeys current desired) : (mergedSection current desired)[k]? = some none :=
  MergePatch.getElem?_ofList_of_nodup (nodup_sectionEntries current desired)
    (List.mem_append_left _ (List.mem_map.mpr ⟨k, h, rfl⟩))

/-- The other keys are left alone. -/
lemma mergedSection_eq_none {current : Option StrMap} {desired : StrMap} {k : String}
    (hd : desired[k]? = none) (h : k ∉ staleKeys current desired) :
    (mergedSection current desired)[k]? = none := by
  refine ExtTreeMap.getElem?_ofList_of_contains_eq_false ?_
  have hk : k ∉ desired.keys := by
    rw [ExtTreeMap.mem_keys, ← ExtTreeMap.isSome_getElem?_iff_mem, hd]
    simp
  rw [map_fst_sectionEntries, List.contains_eq_mem, decide_eq_false_iff_not, List.mem_append]
  exact not_or.mpr ⟨h, hk⟩

/-! ### The patch settles the owned keys -/

/-- The keys of the daemon. -/
def Managed (k : String) : Prop := isManaged k

instance (k : String) : Decidable (Managed k) := inferInstanceAs (Decidable (isManaged k = true))

/-- A set that has keys of the daemon only. -/
structure OnlyManaged (set : LabelSet) : Prop where
  labels : ∀ k ∈ set.labels, Managed k
  annotations : ∀ k ∈ set.annotations, Managed k

/-- One section of the patch, seen from the metadata it was built from. -/
lemma settles_mergedSection (current : Option StrMap) {desired : StrMap}
    (hd : ∀ k ∈ desired, Managed k) :
    Settles Managed (fun k => (mergedSection current desired)[k]?)
      (fun k => (current.getD ∅)[k]?) (fun k => desired[k]?) where
  settled k hk := by
    rw [after]
    cases h : desired[k]? with
    | some v => rw [mergedSection_of_desired h, Option.getD_some]
    | none =>
        have hnot : k ∉ desired := by
          rw [← ExtTreeMap.isSome_getElem?_iff_mem, h]
          simp
        by_cases hmem : k ∈ current.getD ∅
        · rw [mergedSection_of_stale (mem_staleKeys.mpr ⟨hmem, hk, hnot⟩), Option.getD_some]
        · rw [mergedSection_eq_none h fun hs => hmem (mem_staleKeys.mp hs).1, Option.getD_none]
          exact ExtTreeMap.getElem?_eq_none hmem
  frame k hk := by
    refine mergedSection_eq_none ?_ fun hs => hk (mem_staleKeys.mp hs).2.1
    exact ExtTreeMap.getElem?_eq_none fun hmem => hk (hd k hmem)

/-- The patch, seen from the metadata it was built from. -/
structure Settled (body : MetaPatch) (m : ObjectMeta) (desired : LabelSet) : Prop where
  labels : Settles Managed body.labelWord m.labelAt (fun k => desired.labels[k]?)
  annotations :
    Settles Managed body.annotationWord m.annotationAt (fun k => desired.annotations[k]?)

lemma settled_buildMergePatch (m : ObjectMeta) {desired : LabelSet} (hd : OnlyManaged desired) :
    Settled (buildMergePatch m desired) m desired :=
  ⟨settles_mergedSection m.labels hd.labels, settles_mergedSection m.annotations hd.annotations⟩

/-- Writes of the other keys between the snapshot and the patch do not matter. -/
lemma Settled.congr {body : MetaPatch} {m m' : ObjectMeta} {desired : LabelSet}
    (h : Settled body m desired) (hl : ∀ k, Managed k → m'.labelAt k = m.labelAt k)
    (ha : ∀ k, Managed k → m'.annotationAt k = m.annotationAt k) : Settled body m' desired :=
  ⟨h.labels.congr hl, h.annotations.congr ha⟩

lemma after_labelWord (body : MetaPatch) (m : ObjectMeta) :
    after body.labelWord m.labelAt = (m.merge body).labelAt :=
  funext fun k => (m.labelAt_merge body k).symm

lemma after_annotationWord (body : MetaPatch) (m : ObjectMeta) :
    after body.annotationWord m.annotationAt = (m.merge body).annotationAt :=
  funext fun k => (m.annotationAt_merge body k).symm

/-- The patch may be sent again. -/
lemma Settled.again {body : MetaPatch} {m : ObjectMeta} {desired : LabelSet}
    (h : Settled body m desired) : Settled body (m.merge body) desired :=
  ⟨by simpa only [after_labelWord] using h.labels.again,
    by simpa only [after_annotationWord] using h.annotations.again⟩

/-- **Reconciled**: after the patch the keys of the daemon are the wanted ones, and all
other keys are as before. -/
theorem Settled.merge {body : MetaPatch} {m : ObjectMeta} {desired : LabelSet}
    (h : Settled body m desired) :
    (∀ k, Managed k → (m.merge body).labelAt k = desired.labels[k]? ∧
      (m.merge body).annotationAt k = desired.annotations[k]?) ∧
    ∀ k, ¬ Managed k → body.labelWord k = none ∧ body.annotationWord k = none := by
  refine ⟨fun k hk => ⟨?_, ?_⟩, fun k hk => ⟨h.labels.frame k hk, h.annotations.frame k hk⟩⟩
  · rw [← after_labelWord]
    exact h.labels.settled k hk
  · rw [← after_annotationWord]
    exact h.annotations.settled k hk

end Accelrd.K8s
