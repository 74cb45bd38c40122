import Mathlib.Tactic
import Accelrd.Topology.Discover

/-!
The rack that a node infers from the switches it hears.

* `getElem?_chassisCounts`: what the loop counts, and which neighbour it remembers.
* `inferRack_eq_some`, `exists_inferRack`: the rack stands for a chassis that no other
  outnumbers, and every such chassis is the rack in some iteration order.
* `inferRack_stable_iff`: when the orders make no difference.
-/

namespace Accelrd.Topology

open Std Insertions

/-! ### Counting chassis -/

/-- How many neighbours have a chassis id. -/
def chassisCount (neighbors : List LldpNeighbor) (chassisId : String) : ℕ :=
  (neighbors.map LldpNeighbor.chassisId).count chassisId

/-- The first neighbour with a chassis id. -/
def firstWith (neighbors : List LldpNeighbor) (chassisId : String) : Option LldpNeighbor :=
  neighbors.find? fun n => n.chassisId = chassisId

lemma getElem?_countChassis (counts : ExtTreeMap String (ℕ × LldpNeighbor)) (n : LldpNeighbor)
    (c : String) :
    (countChassis counts n)[c]?
      = if n.chassisId = c then
          some ((counts[c]?.map fun e : ℕ × LldpNeighbor => (e.1 + 1, e.2)).getD (1, n))
        else counts[c]? := by
  rw [countChassis]
  by_cases hc : n.chassisId = c
  · subst hc
    rw [if_pos rfl]
    cases counts[n.chassisId]? <;> simp
  · rw [if_neg hc]
    cases counts[n.chassisId]? <;> simp [ExtTreeMap.getElem?_insert, hc]

/-- What the loop of `infer_rack_from_lldp` counts. -/
lemma getElem?_chassisCounts (neighbors : List LldpNeighbor) (c : String) :
    (chassisCounts neighbors)[c]?
      = (firstWith neighbors c).map fun n => (chassisCount neighbors c, n) := by
  have hfold (counts : ExtTreeMap String (ℕ × LldpNeighbor)) :
      (neighbors.foldl countChassis counts)[c]?
        = (counts[c]?.map fun e : ℕ × LldpNeighbor => (e.1 + chassisCount neighbors c, e.2)).or
          ((firstWith neighbors c).map fun n => (chassisCount neighbors c, n)) := by
    induction neighbors generalizing counts with
    | nil =>
        rw [List.foldl_nil]
        cases counts[c]? <;> rfl
    | cons n neighbors ih =>
        have hcount : chassisCount (n :: neighbors) c
            = chassisCount neighbors c + if n.chassisId = c then 1 else 0 := by
          rw [chassisCount, chassisCount, List.map_cons, List.count_cons]
          simp
        rw [List.foldl_cons, ih, getElem?_countChassis, hcount, firstWith, firstWith,
          List.find?_cons]
        by_cases hc : n.chassisId = c
        · simp only [hc, if_true, decide_true]
          cases counts[c]? <;> simp <;> omega
        · simp only [hc, if_false, decide_false, add_zero]
  rw [chassisCounts, hfold, ExtTreeMap.getElem?_empty]
  rfl

/-! ### The greatest count -/

section Greatest

variable {α : Type}

/-- One more entry. -/
lemma maxByCount_concat (l : List (ℕ × α)) (e : ℕ × α) :
    maxByCount (l ++ [e]) = match maxByCount l with
      | none => some e
      | some b => if b.1 ≤ e.1 then some e else some b := by
  rw [maxByCount, List.foldl_append]
  rfl

lemma maxByCount_eq_none_iff {l : List (ℕ × α)} : maxByCount l = none ↔ l = [] := by
  induction l using List.reverseRecOn with
  | nil => exact iff_of_true rfl rfl
  | append_singleton l e _ =>
      rw [maxByCount_concat]
      cases maxByCount l with
      | none => simp
      | some b =>
          simp only
          split_ifs <;> simp

/-- What is chosen is there, and nothing exceeds it. -/
lemma maxByCount_eq_some {l : List (ℕ × α)} {e : ℕ × α} (h : maxByCount l = some e) :
    e ∈ l ∧ ∀ x ∈ l, x.1 ≤ e.1 := by
  induction l using List.reverseRecOn generalizing e with
  | nil => exact absurd h (by simp [maxByCount])
  | append_singleton l f ih =>
      rw [maxByCount_concat] at h
      cases hl : maxByCount l with
      | none =>
          rw [hl] at h
          obtain rfl := Option.some.inj h
          rw [maxByCount_eq_none_iff.mp hl]
          simp
      | some b =>
          obtain ⟨hb, hle⟩ := ih hl
          simp only [hl] at h
          split_ifs at h with hbf
          · obtain rfl := Option.some.inj h
            refine ⟨by simp, List.forall_mem_append.mpr ⟨fun x hx => ?_, by simp⟩⟩
            exact (hle x hx).trans hbf
          · obtain rfl := Option.some.inj h
            exact ⟨List.mem_append_left _ hb, List.forall_mem_append.mpr ⟨hle, by simp; omega⟩⟩

/-- Of several greatest entries the last is chosen. -/
lemma maxByCount_append_singleton {l : List (ℕ × α)} {e : ℕ × α} (h : ∀ x ∈ l, x.1 ≤ e.1) :
    maxByCount (l ++ [e]) = some e := by
  rw [maxByCount_concat]
  cases hl : maxByCount l with
  | none => rfl
  | some b => exact if_pos (h b (maxByCount_eq_some hl).1)

end Greatest

/-! ### The rack -/

section Rack

variable {order : HashOrder (ℕ × LldpNeighbor)} {neighbors : List LldpNeighbor}

/-- No chassis id occurs more often than that of the neighbour. -/
def Dominant (neighbors : List LldpNeighbor) (n : LldpNeighbor) : Prop :=
  n ∈ neighbors ∧ ∀ m ∈ neighbors,
    chassisCount neighbors m.chassisId ≤ chassisCount neighbors n.chassisId

/-- The entries that the greatest is chosen from. -/
def chassisEntries (neighbors : List LldpNeighbor) : List (ℕ × LldpNeighbor) :=
  (chassisCounts neighbors).toList.map Prod.snd

lemma mem_chassisEntries {e : ℕ × LldpNeighbor} :
    e ∈ chassisEntries neighbors ↔
      firstWith neighbors e.2.chassisId = some e.2 ∧
        e.1 = chassisCount neighbors e.2.chassisId := by
  rw [chassisEntries, List.mem_map]
  constructor
  · rintro ⟨⟨c, e⟩, hmem, rfl⟩
    rw [ExtTreeMap.mem_toList_iff_getElem?_eq_some, getElem?_chassisCounts,
      Option.map_eq_some_iff] at hmem
    obtain ⟨n, hn, rfl⟩ := hmem
    have hc : n.chassisId = c := by simpa using List.find?_some hn
    subst hc
    exact ⟨hn, rfl⟩
  · rintro ⟨hfirst, hcount⟩
    refine ⟨(e.2.chassisId, e), ?_, rfl⟩
    rw [ExtTreeMap.mem_toList_iff_getElem?_eq_some, getElem?_chassisCounts, hfirst, ← hcount]
    rfl

/-- Every neighbour is counted. -/
lemma exists_value {m : LldpNeighbor} (hm : m ∈ neighbors) :
    ∃ e ∈ chassisEntries neighbors, e.1 = chassisCount neighbors m.chassisId := by
  have hsome : (firstWith neighbors m.chassisId).isSome := by
    rw [firstWith, List.find?_isSome]
    exact ⟨m, hm, by simp⟩
  obtain ⟨n, hn⟩ := Option.isSome_iff_exists.mp hsome
  have hc : n.chassisId = m.chassisId := by simpa using List.find?_some hn
  refine ⟨(chassisCount neighbors m.chassisId, n), mem_chassisEntries.mpr ?_, rfl⟩
  rw [hc]
  exact ⟨hn, rfl⟩

/-- **The rack stands for a chassis that no other outnumbers**, and for the first neighbour
with it. -/
lemma inferRack_eq_some {s : String} (h : inferRackFromLldp order neighbors = some s) :
    ∃ n, Dominant neighbors n ∧ firstWith neighbors n.chassisId = some n ∧ s = n.rackSlug := by
  obtain ⟨e, he, rfl⟩ := Option.map_eq_some_iff.mp h
  obtain ⟨hmem, hmax⟩ := maxByCount_eq_some he
  obtain ⟨hfirst, hcount⟩ := mem_chassisEntries.mp (order.mem_arrange.mp hmem)
  refine ⟨e.2, ⟨List.mem_of_find?_eq_some hfirst, fun m hm => ?_⟩, hfirst, rfl⟩
  obtain ⟨f, hf, hfm⟩ := exists_value hm
  rw [← hfm, ← hcount]
  exact hmax f (order.mem_arrange.mpr hf)

/-- **Every such chassis is the rack in some order.** -/
lemma exists_inferRack {n : LldpNeighbor} (hn : Dominant neighbors n)
    (hfirst : firstWith neighbors n.chassisId = some n) :
    ∃ order, inferRackFromLldp order neighbors = some n.rackSlug := by
  let e : ℕ × LldpNeighbor := (chassisCount neighbors n.chassisId, n)
  have he : e ∈ chassisEntries neighbors :=
    mem_chassisEntries.mpr ⟨hfirst, rfl⟩
  have hmaxBy : maxByCount ((HashOrder.putLast e).arrange (chassisEntries neighbors)) = some e := by
    obtain ⟨front, harrange, hfront⟩ := HashOrder.arrange_putLast he
    rw [harrange]
    refine maxByCount_append_singleton fun x hx => ?_
    obtain ⟨hxfirst, hxcount⟩ := mem_chassisEntries.mp (hfront x hx)
    rw [hxcount]
    exact hn.2 x.2 (List.mem_of_find?_eq_some hxfirst)
  refine ⟨HashOrder.putLast e, ?_⟩
  show (maxByCount ((HashOrder.putLast e).arrange (chassisEntries neighbors))).map _ = _
  rw [hmaxBy]
  rfl

/-- Without neighbours there is no rack, and only then. -/
lemma inferRack_eq_none_iff : inferRackFromLldp order neighbors = none ↔ neighbors = [] := by
  rw [inferRackFromLldp, Option.map_eq_none_iff, maxByCount_eq_none_iff]
  show order.arrange (chassisEntries neighbors) = [] ↔ neighbors = []
  constructor
  · intro h
    rw [List.eq_nil_iff_forall_not_mem]
    intro m hm
    obtain ⟨e, he, -⟩ := exists_value hm
    have he := order.mem_arrange.mpr he
    rw [h] at he
    exact List.not_mem_nil he
  · rintro rfl
    exact (order.perm _).eq_nil

/-! ### Stability -/

lemma chassisCount_of_perm {ns ms : List LldpNeighbor} (h : ns.Perm ms) (c : String) :
    chassisCount ns c = chassisCount ms c := (h.map _).count_eq c

lemma Dominant.of_perm {ns ms : List LldpNeighbor} (h : ns.Perm ms) {n : LldpNeighbor}
    (hn : Dominant ns n) : Dominant ms n := by
  refine ⟨h.mem_iff.mp hn.1, fun m hm => ?_⟩
  rw [← chassisCount_of_perm h, ← chassisCount_of_perm h]
  exact hn.2 m (h.mem_iff.mpr hm)

/-- A dominant neighbour that comes first can be the rack. -/
lemma Dominant.exists_perm {n : LldpNeighbor} (hn : Dominant neighbors n) :
    ∃ order ns, ns.Perm neighbors ∧ inferRackFromLldp order ns = some n.rackSlug := by
  have hperm : (n :: neighbors.erase n).Perm neighbors := (List.perm_cons_erase hn.1).symm
  obtain ⟨order, horder⟩ := exists_inferRack (hn.of_perm hperm.symm)
    (by rw [firstWith, List.find?_cons_of_pos (by simp)])
  exact ⟨order, _, hperm, horder⟩

/-- **When the rack of a node is stable.** Two runs on the same neighbours, in any two orders
of the list and any two orders of the hash map, infer the same rack exactly if all neighbours
whose chassis no other outnumbers have the same slug. -/
theorem inferRack_stable_iff (neighbors : List LldpNeighbor) :
    (∀ (order order' : HashOrder (ℕ × LldpNeighbor)) (ns ns' : List LldpNeighbor),
        ns.Perm neighbors → ns'.Perm neighbors →
          inferRackFromLldp order ns = inferRackFromLldp order' ns') ↔
      ∀ m n, Dominant neighbors m → Dominant neighbors n → m.rackSlug = n.rackSlug := by
  constructor
  · intro hstable m n hm hn
    obtain ⟨order, ns, hperm, hrack⟩ := hm.exists_perm
    obtain ⟨order', ns', hperm', hrack'⟩ := hn.exists_perm
    have heq := hstable order order' ns ns' hperm hperm'
    rw [hrack, hrack'] at heq
    exact Option.some.inj heq
  · intro hslug order order' ns ns' hperm hperm'
    cases h : inferRackFromLldp order ns with
    | none =>
        obtain rfl := inferRack_eq_none_iff.mp h
        obtain rfl := hperm.symm.eq_nil
        exact (inferRack_eq_none_iff.mpr hperm'.eq_nil).symm
    | some s =>
        cases h' : inferRackFromLldp order' ns' with
        | none =>
            obtain rfl := inferRack_eq_none_iff.mp h'
            obtain rfl := hperm'.symm.eq_nil
            rw [inferRack_eq_none_iff.mpr hperm.eq_nil] at h
            exact absurd h (by simp)
        | some s' =>
            obtain ⟨m, hm, -, rfl⟩ := inferRack_eq_some h
            obtain ⟨n, hn, -, rfl⟩ := inferRack_eq_some h'
            rw [hslug m n (hm.of_perm hperm) (hn.of_perm hperm')]

/-- A host with one port on each of two switches has either as its rack. -/
theorem inferRack_tie :
    let first : LldpNeighbor := ⟨"eth0", "aa:bb:cc:00:00:01", .mac, "TE1", none⟩
    let second : LldpNeighbor := ⟨"eth1", "aa:bb:cc:00:00:02", .mac, "TE1", none⟩
    inferRackFromLldp HashOrder.id [first, second] = some "aabbcc000002" ∧
      inferRackFromLldp (HashOrder.putLast (1, first)) [first, second] = some "aabbcc000001" := by
  decide

end Rack

end Accelrd.Topology
