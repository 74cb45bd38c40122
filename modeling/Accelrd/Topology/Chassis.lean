import Mathlib.Tactic
import Accelrd.Library.Words
import Accelrd.Topology.LabelForm
import Accelrd.Topology.Published

/-!
The labels about switches in `build` of `src/topology/labels.rs`: one for each slug of a
chassis, and the number of chassis ids.

* `toList_lldpSlugify`: a slug is the words of an id, joined by dashes.
* `countsChassis_iff`: the number is that of the labels if different ids have different words.
-/

namespace Accelrd.Topology

open Std Sensors Insertions

/-! ### The words of an id -/

/-- What a slug has a dash for. -/
def separatesWords (c : Char) : Bool := !(c.isAlphanum || c = '.' || c = '_')

/-- The words of an id, in lower case. -/
def idWords (cs : List Char) : List (List Char) := Text.words separatesWords (cs.map Char.toLower)

lemma ne_dash_of_not_separates {c : Char} (hc : separatesWords c = false) : (c == '-') = false := by
  rw [beq_eq_false_iff_ne]
  rintro rfl
  exact absurd hc (by decide)

/-- The loop of the slugs, character by character. -/
lemma squash_cons (last : Bool) (c : Char) (cs : List Char) :
    squash last (c :: cs) =
      if separatesWords c.toLower then (if last then squash true cs else '-' :: squash true cs)
      else c.toLower :: squash false cs := by
  rw [squash, separatesWords]
  cases (c.toLower.isAlphanum || c.toLower = '.' || c.toLower = '_') <;> simp

/-- A slug goes on with a word where its id does. -/
lemma head?_squash (cs : List Char) :
    (squash false cs).head?.any (fun c => !(c == '-')) =
      (cs.map Char.toLower).head?.any (!separatesWords ·) := by
  cases cs with
  | nil => rfl
  | cons c cs =>
      rw [squash_cons, List.map_cons, List.head?_cons]
      cases hc : separatesWords c.toLower with
      | true => simp [hc]
      | false => simp [hc, ne_dash_of_not_separates hc]

/-- **The loop keeps the words.** -/
lemma words_squash (last : Bool) (cs : List Char) :
    Text.words (· == '-') (squash last cs) = idWords cs := by
  induction cs generalizing last with
  | nil => rfl
  | cons c cs ih =>
      rw [squash_cons, idWords, List.map_cons]
      cases hc : separatesWords c.toLower with
      | true =>
          rw [if_pos rfl, Text.words_cons hc, ← idWords]
          cases last with
          | true => exact ih true
          | false =>
              rw [if_neg Bool.false_ne_true, @Text.words_cons (· == '-') '-' rfl]
              exact ih true
      | false =>
          rw [if_neg Bool.false_ne_true, Text.words_cons_of_not hc,
            @Text.words_cons_of_not (· == '-') c.toLower (ne_dash_of_not_separates hc),
            head?_squash, ih, ← idWords]

/-- The loop writes no dash behind another, and none in front after one. -/
lemma single_squash (last : Bool) (cs : List Char) :
    Text.Single '-' (squash last cs) ∧ (last → (squash last cs).head? ≠ some '-') := by
  induction cs generalizing last with
  | nil => exact ⟨List.isChain_nil, fun _ => by simp [squash]⟩
  | cons c cs ih =>
      obtain ⟨htrue, hhead⟩ := ih true
      rw [squash_cons]
      cases hc : separatesWords c.toLower with
      | true =>
          rw [if_pos rfl]
          cases last with
          | true => exact ih true
          | false =>
              refine ⟨?_, fun h => absurd h Bool.false_ne_true⟩
              rw [if_neg Bool.false_ne_true]
              refine List.isChain_cons.mpr ⟨fun d hd _ => ?_, htrue⟩
              rintro rfl
              exact hhead rfl hd
      | false =>
          have hne := beq_eq_false_iff_ne.mp (ne_dash_of_not_separates hc)
          rw [if_neg Bool.false_ne_true]
          exact ⟨List.isChain_cons.mpr ⟨fun d _ heq => absurd heq hne, (ih false).1⟩,
            fun _ heq => hne (Option.some.inj heq)⟩

/-- **A slug is the words of an id, joined by dashes.** -/
lemma toList_lldpSlugify (s : String) :
    (lldpSlugify s).toList = List.intercalate ['-'] (idWords s.toList) := by
  rw [lldpSlugify, String.toList_ofList, Text.trimMatches_eq_intercalate (single_squash _ _).1,
    words_squash]

/-- The words of a chassis id. The colons of a MAC address separate nothing. -/
def chassisWords (n : LldpNeighbor) : List (List Char) :=
  match n.chassisIdKind with
  | .mac => idWords (n.chassisId.toList.filter (· ≠ ':'))
  | _ => idWords n.chassisId.toList

lemma eq_self_of_mem_hexByte {b : UInt8} :
    ∀ c ∈ Lldp.hexByte b, c.toLower = c ∧ separatesWords c = false :=
  forall_mem_hexByte (by decide) b

/-- **The slug of a chassis is the words of its id, joined by dashes.** -/
lemma Received.toList_rackSlug {n : LldpNeighbor} (h : Received n) :
    n.rackSlug.toList = List.intercalate ['-'] (chassisWords n) := by
  rw [LldpNeighbor.rackSlug, chassisWords]
  cases hkind : n.chassisIdKind with
  | mac =>
      have hdigits : ∀ c ∈ n.chassisId.toList.filter (· ≠ ':'),
          c.toLower = c ∧ separatesWords c = false := by
        intro c hc
        obtain ⟨b, hb⟩ := h.exists_hexByte hkind c hc
        exact eq_self_of_mem_hexByte c hb
      simp only [String.toList_ofList]
      generalize n.chassisId.toList.filter (· ≠ ':') = digits at hdigits ⊢
      have hlower : digits.map Char.toLower = digits := by
        rw [List.map_congr_left fun c hc => (hdigits c hc).1, List.map_id']
      rw [idWords, hlower]
      by_cases hnil : digits = []
      · rw [hnil]
        rfl
      · rw [Text.words_eq_singleton hnil fun c hc => (hdigits c hc).2, List.intercalate_singleton]
  | name => exact toList_lldpSlugify n.chassisId
  | other => exact toList_lldpSlugify n.chassisId

lemma words_chassisWords (n : LldpNeighbor) :
    Text.words (· == '-') (List.intercalate ['-'] (chassisWords n)) = chassisWords n := by
  have hself (cs : List Char) :
      Text.words (· == '-') (List.intercalate ['-'] (idWords cs)) = idWords cs := by
    refine Text.words_intercalate_self (fun w hw => Text.ne_nil_of_mem_words hw) ?_
    intro w hw hdash
    have hword := Text.separates_of_mem_words hw '-' hdash
    exact absurd hword (by decide)
  rw [chassisWords]
  cases n.chassisIdKind <;> exact hself _

/-- Two slugs are the same if the words of the ids are. -/
lemma rackSlug_eq_iff {n m : LldpNeighbor} (hn : Received n) (hm : Received m) :
    n.rackSlug = m.rackSlug ↔ chassisWords n = chassisWords m := by
  rw [← String.toList_inj, hn.toList_rackSlug, hm.toList_rackSlug]
  refine ⟨fun h => ?_, fun h => by rw [h]⟩
  rw [← words_chassisWords n, h, words_chassisWords]

/-! ### The labels about switches -/

/-- The keys of the labels about switches. -/
def chassisLabels (labels : StrMap) : List String :=
  labels.keys.filter (Text.startsWith · "accel-topo.lunnova.dev/lldp.chassis.")

/-- The label with the number of switches holds the number of labels about switches, and there
is none where no switch is heard. -/
def CountsChassis (neighbors : List LldpNeighbor) (labels : StrMap) : Prop :=
  labels["accel-topo.lunnova.dev/lldp.chassis-count"]? =
    if neighbors = [] then none else some (toString (chassisLabels labels).length)

section

variable (sysfs : Sysfs) (topology : NodeTopology) (accels : List Accelerator)

lemma getElem?_labels_lldp {k : String}
    (hk : Text.startsWith k "accel-topo.lunnova.dev/lldp.chassis") :
    (build sysfs topology accels).labels[k]? =
      (ExtTreeMap.ofList (lldpLabels topology.lldpNeighbors))[k]? := by
  have hnear : groupsNear "accel-topo.lunnova.dev/lldp.chassis" = [12] := by decide +kernel
  exact getElem?_labels_at sysfs topology accels 12 hk hnear

lemma getElem?_labels_chassisCount :
    (build sysfs topology accels).labels["accel-topo.lunnova.dev/lldp.chassis-count"]? =
      if topology.lldpNeighbors = [] then none
      else some (toString (firstOfChassis [] topology.lldpNeighbors).length) := by
  rw [getElem?_labels_lldp sysfs topology accels (by decide), lldpLabels]
  simp only [List.isEmpty_iff]
  split_ifs with hempty
  · simp
  · rw [getElem?_ofList_append]
    simp

/-- The keys about switches are those of the slugs. -/
lemma mem_chassisLabels {k : String} :
    k ∈ chassisLabels (build sysfs topology accels).labels ↔
      k ∈ (firstOfChassis [] topology.lldpNeighbors).map fun n =>
        "accel-topo.lunnova.dev/lldp.chassis." ++ n.rackSlug := by
  have hnear {k : String} (hk : Text.startsWith k "accel-topo.lunnova.dev/lldp.chassis.") :
      k ∈ (build sysfs topology accels).labels ↔
        k ∈ (lldpLabels topology.lldpNeighbors).map Prod.fst := by
    rw [← ExtTreeMap.isSome_getElem?_iff_mem, getElem?_labels_lldp sysfs topology accels
      (Text.startsWith_trans hk (by decide)), ExtTreeMap.isSome_getElem?_iff_mem,
      ExtTreeMap.mem_ofList, List.contains_iff_mem]
  rw [chassisLabels, List.mem_filter, ExtTreeMap.mem_keys]
  constructor
  · rintro ⟨hmem, hk⟩
    rw [hnear hk, lldpLabels] at hmem
    simp only [List.isEmpty_iff] at hmem
    split_ifs at hmem
    · exact absurd hmem List.not_mem_nil
    · rw [List.map_append, List.map_map, List.mem_append] at hmem
      rcases hmem with hmem | hmem
      · exact hmem
      · -- the count has a key of its own
        obtain rfl := List.mem_singleton.mp hmem
        have hcount : ¬ Text.startsWith "accel-topo.lunnova.dev/lldp.chassis-count"
            "accel-topo.lunnova.dev/lldp.chassis." := by
          decide
        exact absurd hk hcount
  · intro hmem
    obtain ⟨n, hn, rfl⟩ := List.mem_map.mp hmem
    have hne : topology.lldpNeighbors ≠ [] := by
      intro hnil
      rw [hnil] at hn
      exact absurd hn List.not_mem_nil
    refine ⟨(hnear (Text.startsWith_append _ _)).mpr ?_, Text.startsWith_append _ _⟩
    rw [lldpLabels]
    simp only [List.isEmpty_iff]
    rw [if_neg hne, List.map_append, List.map_map]
    exact List.mem_append_left _ hmem

end

/-- The first neighbours with their chassis ids have different ones. -/
lemma nodup_firstOfChassis (seen : List String) (neighbors : List LldpNeighbor) :
    ((firstOfChassis seen neighbors).map LldpNeighbor.chassisId).Nodup ∧
      ∀ n ∈ firstOfChassis seen neighbors, n.chassisId ∉ seen := by
  induction neighbors generalizing seen with
  | nil => exact ⟨List.nodup_nil, List.forall_mem_nil _⟩
  | cons n neighbors ih =>
      rw [firstOfChassis]
      split_ifs with hseen
      · exact ih seen
      · obtain ⟨hnodup, hfresh⟩ := ih (n.chassisId :: seen)
        refine ⟨List.nodup_cons.mpr ⟨?_, hnodup⟩, List.forall_mem_cons.mpr ⟨hseen, ?_⟩⟩
        · intro hmem
          obtain ⟨m, hm, heq⟩ := List.mem_map.mp hmem
          exact hfresh m hm (heq ▸ List.mem_cons_self)
        · exact fun m hm hmem => hfresh m hm (List.mem_cons_of_mem _ hmem)

/-- There are as many different values as there are elements if no two of them agree. -/
lemma length_dedup_eq_iff {α : Type} [DecidableEq α] (l : List α) :
    l.dedup.length = l.length ↔ l.Nodup := by
  rw [← List.dedup_eq_self]
  exact ⟨fun h => (List.dedup_sublist l).eq_of_length h, congrArg List.length⟩

/-- The number of switches is that of the labels about switches exactly if they have different
slugs. -/
lemma countsChassis_iff_slugs (sysfs : Sysfs) (topology : NodeTopology)
    (accels : List Accelerator) :
    CountsChassis topology.lldpNeighbors (build sysfs topology accels).labels ↔
      ∀ n ∈ firstOfChassis [] topology.lldpNeighbors,
        ∀ m ∈ firstOfChassis [] topology.lldpNeighbors, n.rackSlug = m.rackSlug → n = m := by
  have hlabels : (chassisLabels (build sysfs topology accels).labels).length =
      ((firstOfChassis [] topology.lldpNeighbors).map fun n =>
        "accel-topo.lunnova.dev/lldp.chassis." ++ n.rackSlug).dedup.length := by
    refine ((List.perm_ext_iff_of_nodup ?_ (List.nodup_dedup _)).mpr fun k => ?_).length_eq
    · exact ExtTreeMap.nodup_keys.filter _
    · rw [mem_chassisLabels, List.mem_dedup]
  obtain ⟨hids, -⟩ := nodup_firstOfChassis [] topology.lldpNeighbors
  rw [CountsChassis, getElem?_labels_chassisCount, hlabels]
  split_ifs with hempty
  · rw [hempty]
    exact iff_of_true rfl (List.forall_mem_nil _)
  · have hmap := length_dedup_eq_iff ((firstOfChassis [] topology.lldpNeighbors).map fun n =>
      "accel-topo.lunnova.dev/lldp.chassis." ++ n.rackSlug)
    rw [List.length_map] at hmap
    rw [Option.some_inj, Text.toString_injective.eq_iff, eq_comm, hmap,
      List.nodup_map_iff_inj_on (List.Nodup.of_map _ hids)]
    simp only [String.append_right_inj]

/-- **The number of switches is that of the labels about switches** exactly if different ids,
each with the first neighbour that has it, have different words. -/
theorem countsChassis_iff (sysfs : Sysfs) (topology : NodeTopology) (accels : List Accelerator)
    (hreceived : ∀ n ∈ topology.lldpNeighbors, Received n) :
    CountsChassis topology.lldpNeighbors (build sysfs topology accels).labels ↔
      ∀ n ∈ firstOfChassis [] topology.lldpNeighbors,
        ∀ m ∈ firstOfChassis [] topology.lldpNeighbors,
          chassisWords n = chassisWords m → n.chassisId = m.chassisId := by
  obtain ⟨hids, -⟩ := nodup_firstOfChassis [] topology.lldpNeighbors
  have hsub := (firstOfChassis_sublist [] topology.lldpNeighbors).subset
  rw [countsChassis_iff_slugs]
  refine forall₂_congr fun n hn => forall₂_congr fun m hm => ?_
  rw [rackSlug_eq_iff (hreceived n (hsub hn)) (hreceived m (hsub hm))]
  exact imp_congr_right fun _ => ⟨congrArg _, List.inj_on_of_nodup_map hids hn hm⟩

/-- Two switches that differ in the way the parts of their names are kept apart. -/
def spacedLeaf : LldpNeighbor := ⟨"eth0", "leaf 1", .name, "1", none⟩

def dashedLeaf : LldpNeighbor := ⟨"eth1", "leaf-1", .name, "1", none⟩

lemma received_spacedLeaf : Received spacedLeaf :=
  received_of_records [⟨1, 0x07 :: "leaf 1".toUTF8.data.toList, by decide, by decide⟩,
    ⟨2, [0x07, 0x31], by decide, by decide⟩] (by decide) (by decide)

lemma received_dashedLeaf : Received dashedLeaf :=
  received_of_records [⟨1, 0x07 :: "leaf-1".toUTF8.data.toList, by decide, by decide⟩,
    ⟨2, [0x07, 0x31], by decide, by decide⟩] (by decide) (by decide)

/-- A node with one uplink to each of two switches. -/
def uplinks (n m : LldpNeighbor) : NodeTopology := ⟨none, none, [], [n, m], ⟨[]⟩⟩

/-- Different names that have different words. -/
theorem countsChassis_twoSwitches :
    CountsChassis [spacedLeaf, dottedSwitch]
      (build (fun _ => none) (uplinks spacedLeaf dottedSwitch) []).labels := by
  refine (countsChassis_iff (fun _ => none) (uplinks spacedLeaf dottedSwitch) [] ?_).mpr
    (by decide)
  exact List.forall_mem_cons.mpr ⟨received_spacedLeaf,
    List.forall_mem_singleton.mpr received_dottedSwitch⟩

/-- The two leaves share a label. -/
theorem leaves_share_label :
    (∀ n ∈ [spacedLeaf, dashedLeaf], Received n) ∧ spacedLeaf.chassisId ≠ dashedLeaf.chassisId ∧
      ¬ CountsChassis [spacedLeaf, dashedLeaf]
        (build (fun _ => none) (uplinks spacedLeaf dashedLeaf) []).labels := by
  refine ⟨List.forall_mem_cons.mpr ⟨received_spacedLeaf,
    List.forall_mem_singleton.mpr received_dashedLeaf⟩, by decide, ?_⟩
  intro h
  have hslugs := (countsChassis_iff_slugs (fun _ => none) (uplinks spacedLeaf dashedLeaf) []).mp h
  exact absurd (hslugs spacedLeaf (by decide) dashedLeaf (by decide) (by decide)) (by decide)

end Accelrd.Topology
