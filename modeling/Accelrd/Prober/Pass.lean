import Mathlib.Tactic
import Accelrd.Prober.Dispatch

/-!
What a pass does to a node, and what it does to a rack.

* `mem_passRequests`: the requests of a pass are those of its tasks that land.
* `members_patchNodes`: a pass keeps the members of every rack, with the timestamps
  it wrote on them.
* `slots_passResult`: **a pass is one cycle of the least-recently-used schedule** for
  each rack whose patches land. With it, runs of passes are runs of `Lru.turn`.
-/

namespace Accelrd.Prober

open Std Kube

/-! ### The requests of a pass -/

lemma map_fst_passRequests_nodup {nodes : List Node} (hnd : DistinctNames nodes) (cutoff : String)
    (o : Outcomes) : ((passRequests nodes cutoff o).map Prod.fst).Nodup := by
  have h := flatMap_nodes_plan_nodup hnd cutoff
  rw [← map_fst_flatMap_requests o] at h
  exact h.sublist (List.filter_sublist.map _)

lemma mem_passRequests {nodes : List Node} {cutoff : String} {o : Outcomes} {name : String}
    {p : MetaPatch} :
    (name, p) ∈ passRequests nodes cutoff o ↔
      ∃ t ∈ plan nodes cutoff, (name, p) ∈ t.requests o ∧ o.landed name := by
  simp only [passRequests, landedRequests, List.mem_filter, List.mem_flatMap]
  grind

/-- Probes write annotations only. -/
lemma labels_of_mem_requests {o : Outcomes} {t : Task} {r : String × MetaPatch}
    (h : r ∈ t.requests o) : r.2.labels = none := by
  cases t with
  | pair rack server client =>
      simp only [Task.requests, patchPair, List.mem_cons, List.not_mem_nil, or_false] at h
      rcases h with rfl | rfl <;> rfl
  | loopback rack node =>
      simp only [Task.requests, patchLoopback, List.mem_cons, List.not_mem_nil, or_false] at h
      rw [h]

lemma labels_of_mem_passRequests {nodes : List Node} {cutoff : String} {o : Outcomes}
    {r : String × MetaPatch} (h : r ∈ passRequests nodes cutoff o) : r.2.labels = none := by
  obtain ⟨name, p⟩ := r
  obtain ⟨t, -, ht, -⟩ := mem_passRequests.mp h
  exact labels_of_mem_requests ht

/-! ### Members after a pass -/

/-- A view after a patch of its node's annotations. -/
def NodeView.merge (v : NodeView) (p : MetaPatch) : NodeView where
  name := v.name
  lastAt := (p.annotationWord annLastAt).getD v.lastAt
  lastLoopbackAt := (p.annotationWord annLbLastAt).getD v.lastLoopbackAt
  rack := v.rack

/-- A view after those of the requests that go to its node. -/
def NodeView.receive (v : NodeView) (reqs : List (String × MetaPatch)) : NodeView :=
  reqs.foldl (fun v r => if r.1 = v.name then v.merge r.2 else v) v

lemma fromNode_merge {p : MetaPatch} (hp : p.labels = none) (n : Node) :
    NodeView.fromNode (n.merge p) = (NodeView.fromNode n).map (·.merge p) := by
  have hlabel (k : String) : (n.merge p).metadata.labelAt k = n.metadata.labelAt k := by
    rw [Node.merge, ObjectMeta.labelAt_merge, MetaPatch.labelWord, hp]
    rfl
  refine Option.ext fun v => ?_
  rw [fromNode_eq_some_iff, Option.map_eq_some_iff, hlabel, hlabel]
  simp only [fromNode_eq_some_iff, Node.merge, ObjectMeta.name_merge, ObjectMeta.annotationAt_merge]
  constructor
  · rintro ⟨hname, hrack, hrdma, hlast, hloop⟩
    refine ⟨⟨v.name, n.metadata.annotationAt annLastAt, n.metadata.annotationAt annLbLastAt,
      v.rack⟩, ⟨hname, hrack, hrdma, rfl, rfl⟩, ?_⟩
    obtain ⟨vname, vlast, vloop, vrack⟩ := v
    rw [NodeView.merge]
    simp only [NodeView.mk.injEq, true_and, and_true]
    exact ⟨hlast.symm, hloop.symm⟩
  · rintro ⟨w, ⟨hname, hrack, hrdma, hlast, hloop⟩, rfl⟩
    exact ⟨hname, hrack, hrdma, by rw [NodeView.merge, hlast], by rw [NodeView.merge, hloop]⟩

lemma NodeView.receive_cons (v : NodeView) (r : String × MetaPatch)
    (reqs : List (String × MetaPatch)) :
    v.receive (r :: reqs) = (if r.1 = v.name then v.merge r.2 else v).receive reqs := rfl

/-- Reading the views after the requests is answering the requests on the views. -/
lemma fromNode_receive {reqs : List (String × MetaPatch)} (hreqs : ∀ r ∈ reqs, r.2.labels = none)
    (n : Node) :
    NodeView.fromNode (n.receive reqs) = (NodeView.fromNode n).map (·.receive reqs) := by
  induction reqs generalizing n with
  | nil => simp [Node.receive, NodeView.receive]
  | cons r reqs ih =>
      rw [List.forall_mem_cons] at hreqs
      rw [Node.receive_cons, ih hreqs.2]
      split_ifs with hn
      · rw [fromNode_merge hreqs.1, Option.map_map]
        refine Option.map_congr fun v hv => ?_
        have hname : r.1 = v.name := Option.some.inj (hn.symm.trans (fromNode_eq_some_iff.mp hv).1)
        rw [Function.comp_apply, NodeView.receive_cons, if_pos hname]
      · refine Option.map_congr fun v hv => ?_
        have hname : ¬ r.1 = v.name := fun h => hn (by
          rw [Node.isNamed, (fromNode_eq_some_iff.mp hv).1, h])
        rw [NodeView.receive_cons, if_neg hname]

lemma isReady_receive (n : Node) (reqs : List (String × MetaPatch)) :
    isReady (n.receive reqs) = isReady n := by
  induction reqs generalizing n with
  | nil => rfl
  | cons r reqs ih =>
      rw [Node.receive_cons, ih]
      split_ifs <;> rfl

@[simp] lemma NodeView.name_receive (v : NodeView) (reqs : List (String × MetaPatch)) :
    (v.receive reqs).name = v.name := by
  induction reqs generalizing v with
  | nil => rfl
  | cons r reqs ih =>
      rw [receive_cons]
      refine (ih _).trans ?_
      split_ifs <;> rfl

@[simp] lemma NodeView.rack_receive (v : NodeView) (reqs : List (String × MetaPatch)) :
    (v.receive reqs).rack = v.rack := by
  induction reqs generalizing v with
  | nil => rfl
  | cons r reqs ih =>
      rw [receive_cons]
      refine (ih _).trans ?_
      split_ifs <;> rfl

lemma eligible_patchNodes {reqs : List (String × MetaPatch)} (hreqs : ∀ r ∈ reqs, r.2.labels = none)
    (nodes : List Node) :
    eligible (patchNodes nodes reqs) = (eligible nodes).map (·.receive reqs) := by
  have hready : isReady ∘ (fun n : Node => n.receive reqs) = isReady := by
    funext n
    exact isReady_receive n reqs
  rw [eligible, eligible, patchNodes_eq_map, List.filter_map, hready, List.filterMap_map,
    List.map_filterMap]
  refine List.filterMap_congr fun n _ => ?_
  exact fromNode_receive hreqs n

/-- **A pass keeps the racks**: their members are as before, but for timestamps. -/
theorem members_patchNodes {reqs : List (String × MetaPatch)}
    (hreqs : ∀ r ∈ reqs, r.2.labels = none) (nodes : List Node) (r : String) :
    members (patchNodes nodes reqs) r = (members nodes r).map (·.receive reqs) := by
  have hrack : (fun v : NodeView => decide (v.rack = r)) ∘ (fun v : NodeView => v.receive reqs)
      = fun v => decide (v.rack = r) := by
    funext v
    simp
  rw [members, members, eligible_patchNodes hreqs, List.filter_map, hrack]
  exact sortBy_map (fun a b => by simp [nameCmp]) _

/-- A member that no request goes to keeps its timestamps. -/
lemma NodeView.receive_of_notMem {v : NodeView} {reqs : List (String × MetaPatch)}
    (h : v.name ∉ reqs.map Prod.fst) : v.receive reqs = v := by
  induction reqs with
  | nil => rfl
  | cons r reqs ih =>
      rw [List.map_cons, List.mem_cons, not_or] at h
      rw [receive, List.foldl_cons, if_neg (Ne.symm h.1)]
      exact ih h.2

/-- A member with one request takes its word. -/
lemma NodeView.receive_of_mem {v : NodeView} {reqs : List (String × MetaPatch)} {p : MetaPatch}
    (hnd : (reqs.map Prod.fst).Nodup) (h : (v.name, p) ∈ reqs) : v.receive reqs = v.merge p := by
  induction reqs with
  | nil => simp at h
  | cons r reqs ih =>
      rw [List.map_cons, List.nodup_cons] at hnd
      rcases List.mem_cons.mp h with rfl | h
      · rw [receive, List.foldl_cons, if_pos rfl]
        exact receive_of_notMem (v := v.merge p) hnd.1
      · have hr : r.1 ≠ v.name := fun heq => hnd.1 (heq ▸ List.mem_map.mpr ⟨_, h, rfl⟩)
        rw [receive, List.foldl_cons, if_neg hr]
        exact ih hnd.2 h

/-! ### A rack and its task -/

/-- The task of a rack is in the plan. -/
lemma mem_plan_of_pickPair {nodes : List Node} {cutoff r : String} {a b : NodeView}
    (h : pickPair (members nodes r) cutoff = some (a, b)) :
    Task.pair r a b ∈ plan nodes cutoff := by
  have hne : members nodes r ≠ [] := by
    intro hnil
    have := two_le_length_of_pickPair h
    rw [hnil] at this
    simp at this
  refine List.mem_filterMap.mpr ⟨(r, members nodes r), ?_, ?_⟩
  · rw [racksOf, ExtTreeMap.mem_toList_iff_getElem?_eq_some, getElem?_groupByRack, if_neg hne]
  · exact taskFor_eq_some_iff.mpr (Or.inl ⟨(a, b), h, rfl⟩)

/-- A task comes from the members of its own rack. -/
lemma taskFor_of_mem_plan {nodes : List Node} {cutoff : String} {t : Task}
    (h : t ∈ plan nodes cutoff) : taskFor cutoff (t.rack, members nodes t.rack) = some t := by
  obtain ⟨⟨r, vs⟩, hentry, ht⟩ := List.mem_filterMap.mp h
  obtain rfl : vs = members nodes r := mem_racksOf hentry
  rwa [rack_of_taskFor ht]

/-- A task on a member of a rack is the task of this rack. -/
lemma rack_of_mem_nodes {nodes : List Node} {cutoff r : String} {t : Task} {v : NodeView}
    (hnd : DistinctNames nodes) (ht : t ∈ plan nodes cutoff) (hv : v ∈ members nodes r)
    (hname : v.name ∈ t.nodes) : t.rack = r := by
  obtain ⟨w, hw, hwv⟩ := (nodes_of_mem_plan hnd ht).2 v.name hname
  rw [mem_members] at hv hw
  rw [← hw.2, ← hv.2, List.inj_on_of_nodup_map hnd.eligible hw.1 hv.1 hwv]

/-- The slots of a rack, in the order of its members. -/
def slots (nodes : List Node) (r : String) : List (Lru.Slot String String) :=
  (members nodes r).map NodeView.slot

lemma length_slots (nodes : List Node) (r : String) :
    (slots nodes r).length = (members nodes r).length := List.length_map _

lemma DistinctNames.slots {nodes : List Node} (h : DistinctNames nodes) (r : String) :
    ((slots nodes r).map Lru.Slot.name).Nodup := by
  rw [Prober.slots, map_name_slot]
  exact h.members r

lemma DistinctNames.passResult {nodes : List Node} (h : DistinctNames nodes) (cutoff : String)
    (o : Outcomes) : DistinctNames (passResult nodes cutoff o) := by
  have hmap (l : List Node) :
      l.filterMap (·.metadata.name) = (l.map (·.metadata.name)).filterMap id := by
    rw [List.filterMap_map]
    rfl
  rw [DistinctNames, hmap, Prober.passResult, map_name_patchNodes, ← hmap]
  exact h

/-- The stamp a pass writes for a pair. -/
lemma slot_merge_pair (v : NodeView) (partner now : String) (verdict : Verdict) :
    (v.merge { annotations := buildBody Keys.rack (some partner) now verdict }).slot
      = Lru.Slot.mk now v.name := by
  have hat : (buildBody Keys.rack (some partner) now verdict)[annLastAt]? = some (some now) :=
    buildBody_lastAt Keys.rack (some partner) now verdict
  simp [NodeView.merge, NodeView.slot, MetaPatch.annotationWord, hat, stampOf]

/-- A loopback probe does not move its node in the schedule of pairs. -/
lemma slot_merge_loopback (v : NodeView) (now : String) (verdict : Verdict) :
    (v.merge { annotations := buildBody Keys.loopback none now verdict }).slot = v.slot := by
  have hat : (buildBody Keys.loopback none now verdict)[annLastAt]? = none :=
    buildBody_eq_none_of_notMem_family (by decide)
  simp [NodeView.merge, NodeView.slot, MetaPatch.annotationWord, hat]

/-- The two nodes of a pair whose patches land get its stamp. -/
lemma slot_receive_of_pickPair {nodes : List Node} {cutoff r : String} {o : Outcomes}
    {a b v : NodeView} (hnd : DistinctNames nodes)
    (hp : pickPair (members nodes r) cutoff = some (a, b))
    (hv : v.name = a.name ∨ v.name = b.name) (hland : o.landed v.name) :
    (v.receive (passRequests nodes cutoff o)).slot = Lru.Slot.mk (o.now (.pair r a b)) v.name := by
  obtain ⟨partner, hreq⟩ : ∃ partner, (v.name, MetaPatch.mk none
      (some (buildBody Keys.rack (some partner) (o.now (.pair r a b)) (o.verdict (.pair r a b))))) ∈
        (Task.pair r a b).requests o := by
    rcases hv with hv | hv
    · exact ⟨b.name, hv ▸ List.mem_cons_self⟩
    · exact ⟨a.name, hv ▸ List.mem_cons_of_mem _ List.mem_cons_self⟩
  have hmem := mem_passRequests.mpr ⟨_, mem_plan_of_pickPair hp, hreq, hland⟩
  rw [NodeView.receive_of_mem (map_fst_passRequests_nodup hnd cutoff o) hmem]
  exact slot_merge_pair v partner _ _

/-- The other members of the rack keep their slots. -/
lemma slot_receive_of_ne {nodes : List Node} {cutoff r : String} {o : Outcomes} {v : NodeView}
    (hnd : DistinctNames nodes) (hv : v ∈ members nodes r)
    (hp : ∀ a b, pickPair (members nodes r) cutoff = some (a, b) →
      v.name ≠ a.name ∧ v.name ≠ b.name) :
    (v.receive (passRequests nodes cutoff o)).slot = v.slot := by
  by_cases hmem : v.name ∈ (passRequests nodes cutoff o).map Prod.fst
  · obtain ⟨⟨name, p⟩, hreq, rfl : name = v.name⟩ := List.mem_map.mp hmem
    obtain ⟨t, ht, htreq, -⟩ := mem_passRequests.mp hreq
    have hname : v.name ∈ t.nodes := by
      rw [← map_fst_requests o]
      exact List.mem_map.mpr ⟨_, htreq, rfl⟩
    have htask := taskFor_of_mem_plan ht
    rw [rack_of_mem_nodes hnd ht hv hname, taskFor_eq_some_iff] at htask
    rw [NodeView.receive_of_mem (map_fst_passRequests_nodup hnd cutoff o) hreq]
    rcases htask with ⟨⟨a, b⟩, hpick, rfl⟩ | ⟨-, w, -, rfl⟩
    · have := hp a b hpick
      simp only [Task.nodes, List.mem_cons, List.not_mem_nil, or_false] at hname
      grind
    · obtain ⟨-, rfl⟩ := Prod.mk.inj (List.mem_singleton.mp htreq)
      exact slot_merge_loopback v _ _
  · rw [NodeView.receive_of_notMem hmem]

/-- **A pass is one cycle of the schedule**, seen by a rack whose patches land: the pair
that `pickPair` picks gets the stamp of the pass, the others keep theirs. -/
theorem slots_passResult {nodes : List Node} {cutoff r : String} {o : Outcomes} {stamp : String}
    (hnd : DistinctNames nodes)
    (hpair : ∀ a b, pickPair (members nodes r) cutoff = some (a, b) →
      o.now (.pair r a b) = stamp ∧ o.landed a.name ∧ o.landed b.name) :
    slots (passResult nodes cutoff o) r = Lru.turn (slots nodes r) ⟨cutoff, stamp⟩ := by
  have hslots : slots (passResult nodes cutoff o) r
      = (members nodes r).map fun v => (v.receive (passRequests nodes cutoff o)).slot := by
    rw [slots, passResult, members_patchNodes (fun _ => labels_of_mem_passRequests), List.map_map]
    rfl
  rw [hslots, Lru.turn, slots, ← pickPair_names]
  cases hp : pickPair (members nodes r) cutoff with
  | some p =>
      obtain ⟨a, b⟩ := p
      obtain ⟨rfl, hla, hlb⟩ := hpair a b hp
      simp only [Option.map_some, Lru.touch, List.map_map]
      refine List.map_congr_left fun v hv => ?_
      simp only [Function.comp_apply]
      split_ifs with hab
      · change v.name = a.name ∨ v.name = b.name at hab
        refine slot_receive_of_pickPair hnd hp hab ?_
        rcases hab with hab | hab
        · rwa [hab]
        · rwa [hab]
      · refine slot_receive_of_ne hnd hv fun a' b' h => ?_
        obtain ⟨rfl, rfl⟩ := Prod.mk.inj (Option.some.inj (hp.symm.trans h))
        exact not_or.mp hab
  | none =>
      rw [Option.map_none]
      refine List.map_congr_left fun v hv => slot_receive_of_ne hnd hv fun a b h => ?_
      rw [hp] at h
      simp at h

end Accelrd.Prober
