import Mathlib.Tactic
import Accelrd.Prober.Pair

/-!
`src/prober/reconcile.rs`, `run_once`: one pass over the cluster, from the node
list to the last annotation patch.

* `taskFor`, `plan`: which probe each rack gets. `Task.Sound` says what is true of
  the nodes of a task, `flatMap_nodes_plan_nodup` that no node has two tasks.
* `PassState`, `step`, `run`: the loop with its semaphore and the tasks it spawns,
  one atomic action at a time. Tasks patch their nodes in any order.
* `PassInv`: the tasks of a pass are a prefix of the plan, and every pass carries out the
  same requests, so that the cluster at its end does not depend on the interleaving
  (`nodes_of_done`).
-/

namespace Accelrd.Prober

open Std Kube

/-! ### The plan of a pass -/

/-- A probe that `run_once` spawns. -/
inductive Task where
  | pair (rack : String) (server client : NodeView)
  | loopback (rack : String) (node : NodeView)

/-- The rack it is spawned for. -/
def Task.rack : Task → String
  | .pair rack _ _ => rack
  | .loopback rack _ => rack

/-- The nodes it runs on. -/
def Task.nodes : Task → List String
  | .pair _ server client => [server.name, client.name]
  | .loopback _ node => [node.name]

/-- The body of the loop over the racks: a pair, else a loopback target, else nothing. -/
def taskFor (cutoff : String) (entry : String × List NodeView) : Option Task :=
  match pickPair entry.2 cutoff with
  | some (server, client) => some (.pair entry.1 server client)
  | none =>
      match pickLoopback entry.2 cutoff with
      | some node => some (.loopback entry.1 node)
      | none => none

/-- The racks in the order of the loop. -/
def racksOf (nodes : List Node) : List (String × List NodeView) :=
  (groupByRack (eligible nodes)).toList

/-- The tasks of a pass that visits every rack, in the order of the loop. -/
def plan (nodes : List Node) (cutoff : String) : List Task :=
  (racksOf nodes).filterMap (taskFor cutoff)

/-- An eligible node of the rack: Ready, with RDMA, and with this rack label. -/
def IsEligible (nodes : List Node) (rack name : String) : Prop :=
  ∃ n ∈ nodes, n.metadata.name = some name ∧ isReady n ∧
    n.metadata.labelAt rackLabel = some rack ∧ n.metadata.labelAt rdmaLabel = some rdmaPresent

/-- What is true of the nodes of a task. -/
def Task.Sound (nodes : List Node) : Task → Prop
  | .pair rack server client =>
      server.name ≠ client.name ∧ IsEligible nodes rack server.name ∧
        IsEligible nodes rack client.name
  | .loopback rack node => ∀ name, IsEligible nodes rack name ↔ name = node.name

lemma isEligible_iff {nodes : List Node} {rack name : String} :
    IsEligible nodes rack name ↔ ∃ v ∈ members nodes rack, v.name = name := by
  simp only [mem_members, mem_eligible, IsEligible]
  constructor
  · rintro ⟨n, hn, hname, hready, hrack, hrdma⟩
    exact ⟨⟨name, n.metadata.annotationAt annLastAt, n.metadata.annotationAt annLbLastAt, rack⟩,
      ⟨⟨n, hn, hready, fromNode_eq_some_iff.mpr ⟨hname, hrack, hrdma, rfl, rfl⟩⟩, rfl⟩, rfl⟩
  · rintro ⟨v, ⟨⟨n, hn, hready, hv⟩, rfl⟩, rfl⟩
    obtain ⟨hname, hrack, hrdma, -, -⟩ := fromNode_eq_some_iff.mp hv
    exact ⟨n, hn, hname, hready, hrack, hrdma⟩

lemma mem_racksOf {nodes : List Node} {entry : String × List NodeView} (h : entry ∈ racksOf nodes) :
    entry.2 = members nodes entry.1 := by
  rw [racksOf, ExtTreeMap.mem_toList_iff_getElem?_eq_some, getElem?_groupByRack] at h
  split_ifs at h
  exact (Option.some.inj h).symm

/-- The racks of the loop are different. -/
lemma map_fst_racksOf_nodup (nodes : List Node) : ((racksOf nodes).map Prod.fst).Nodup := by
  rw [racksOf, ExtTreeMap.map_fst_toList_eq_keys]
  exact ExtTreeMap.nodup_keys

/-- The two arms of the loop body. -/
lemma taskFor_eq_some_iff {cutoff : String} {entry : String × List NodeView} {t : Task} :
    taskFor cutoff entry = some t ↔
      (∃ p, pickPair entry.2 cutoff = some p ∧ t = .pair entry.1 p.1 p.2) ∨
      (pickPair entry.2 cutoff = none ∧
        ∃ v, pickLoopback entry.2 cutoff = some v ∧ t = .loopback entry.1 v) := by
  unfold taskFor
  cases hp : pickPair entry.2 cutoff with
  | some p => simp [eq_comm]
  | none => cases hl : pickLoopback entry.2 cutoff <;> simp [eq_comm]

lemma rack_of_taskFor {cutoff : String} {entry : String × List NodeView} {t : Task}
    (h : taskFor cutoff entry = some t) : t.rack = entry.1 := by
  rcases taskFor_eq_some_iff.mp h with ⟨p, -, rfl⟩ | ⟨-, v, -, rfl⟩ <;> rfl

/-- The nodes of a task are different members of its rack. -/
lemma nodes_of_taskFor {cutoff : String} {entry : String × List NodeView} {t : Task}
    (hnd : (entry.2.map (·.name)).Nodup) (h : taskFor cutoff entry = some t) :
    t.nodes.Nodup ∧ ∀ name ∈ t.nodes, ∃ v ∈ entry.2, v.name = name := by
  rcases taskFor_eq_some_iff.mp h with ⟨⟨a, b⟩, hp, rfl⟩ | ⟨-, v, hv, rfl⟩
  · obtain ⟨ha, hb⟩ := pickPair_mem hp
    refine ⟨by simpa [Task.nodes] using pickPair_ne hnd hp, ?_⟩
    simp only [Task.nodes, List.mem_cons, List.not_mem_nil, or_false]
    rintro name (rfl | rfl)
    · exact ⟨a, ha, rfl⟩
    · exact ⟨b, hb, rfl⟩
  · obtain ⟨hmem, -⟩ := pickLoopback_eq_some_iff.mp hv
    simp [Task.nodes, hmem]

/-- What the code checks before it spawns a task. -/
lemma sound_of_mem_plan {nodes : List Node} {cutoff : String} {t : Task} (hnd : DistinctNames nodes)
    (h : t ∈ plan nodes cutoff) : t.Sound nodes := by
  obtain ⟨entry, hentry, ht⟩ := List.mem_filterMap.mp h
  have hmem := mem_racksOf hentry
  rcases taskFor_eq_some_iff.mp ht with ⟨⟨a, b⟩, hp, rfl⟩ | ⟨-, v, hv, rfl⟩
  · rw [hmem] at hp
    obtain ⟨ha, hb⟩ := pickPair_mem hp
    exact ⟨pickPair_ne (hnd.members _) hp, isEligible_iff.mpr ⟨a, ha, rfl⟩,
      isEligible_iff.mpr ⟨b, hb, rfl⟩⟩
  · rw [hmem, pickLoopback_eq_some_iff] at hv
    intro name
    rw [isEligible_iff, hv.1]
    simp [eq_comm]

/-- At most one task for each rack. -/
lemma map_rack_plan_nodup (nodes : List Node) (cutoff : String) :
    ((plan nodes cutoff).map Task.rack).Nodup := by
  refine (map_fst_racksOf_nodup nodes).sublist ?_
  rw [plan, List.map_filterMap, ← List.filterMap_eq_map]
  refine filterMap_sublist_filterMap (fun entry rack h => ?_) _
  obtain ⟨t, ht, rfl⟩ := Option.map_eq_some_iff.mp h
  rw [rack_of_taskFor ht]
  rfl

/-- A task of the plan runs on different members of its rack. -/
lemma nodes_of_mem_plan {nodes : List Node} {cutoff : String} {t : Task} (hnd : DistinctNames nodes)
    (h : t ∈ plan nodes cutoff) :
    t.nodes.Nodup ∧ ∀ name ∈ t.nodes, ∃ v ∈ members nodes t.rack, v.name = name := by
  obtain ⟨entry, hentry, ht⟩ := List.mem_filterMap.mp h
  have hmem := mem_racksOf hentry
  have := nodes_of_taskFor (by rw [hmem]; exact hnd.members _) ht
  rwa [hmem, ← rack_of_taskFor ht] at this

/-- **Tasks are node-disjoint**: no node is in two tasks, nor twice in one. -/
theorem flatMap_nodes_plan_nodup {nodes : List Node} (hnd : DistinctNames nodes) (cutoff : String) :
    ((plan nodes cutoff).flatMap Task.nodes).Nodup := by
  refine List.nodup_flatMap.mpr ⟨fun t ht => (nodes_of_mem_plan hnd ht).1, ?_⟩
  refine (List.pairwise_map.mp (map_rack_plan_nodup nodes cutoff)).imp_of_mem ?_
  intro t t' ht ht' hrack name hname hname'
  obtain ⟨v, hv, rfl⟩ := (nodes_of_mem_plan hnd ht).2 name hname
  obtain ⟨v', hv', hvv'⟩ := (nodes_of_mem_plan hnd ht').2 _ hname'
  rw [mem_members] at hv hv'
  -- the groups of two racks have no node in common
  have : v' = v := List.inj_on_of_nodup_map hnd.eligible hv'.1 hv.1 hvv'
  exact hrack (by rw [← hv.2, ← hv'.2, this])

/-! ### The pass as a machine -/

/-- What the environment decides about a pass: the verdict of each task, the clock
reading at its patches, and which nodes' patches the API server carries out. -/
structure Outcomes where
  verdict : Task → Verdict
  now : Task → String
  landed : String → Bool

/-- A pass in which every probe times out and every patch is carried out. -/
def allTimeOut (now : String) : Outcomes where
  verdict := fun _ => .timeout
  now := fun _ => now
  landed := fun _ => true

/-- The patches a task sends at its end, in order. -/
def Task.requests (o : Outcomes) (t : Task) : List (String × MetaPatch) :=
  match t with
  | .pair _ server client => patchPair (o.now t) server.name client.name (o.verdict t)
  | .loopback _ node => patchLoopback (o.now t) node.name (o.verdict t)

/-- The state of a pass: the racks the loop has not visited, the free permits of the
semaphore, the tasks spawned so far, those of them that still run, with the
patches they have not sent yet, and the cluster. -/
structure PassState where
  racks : List (String × List NodeView)
  permits : ℕ
  spawned : List Task
  running : List (Task × List (String × MetaPatch))
  nodes : List Node

/-- One atomic action of a pass: the loop visits the next rack, a running task sends
its next patch, or it ends and returns its permit. -/
inductive Action where
  | visit
  | patch (i : ℕ)
  | finish (i : ℕ)

/-- The state after an action, if the action is possible. The loop waits while it has a
task to spawn and no permit is free. -/
def step (cutoff : String) (o : Outcomes) (s : PassState) : Action → Option PassState
  | .visit =>
      match s.racks with
      | [] => none
      | entry :: racks =>
          match taskFor cutoff entry with
          | none => some { s with racks }
          | some t =>
              if s.permits = 0 then none
              else some { s with
                racks
                permits := s.permits - 1
                spawned := s.spawned ++ [t]
                running := s.running ++ [(t, t.requests o)] }
  | .patch i =>
      match s.running[i]? with
      | some (t, r :: rest) =>
          some { s with
            running := s.running.set i (t, rest)
            nodes := if o.landed r.1 then patchNode s.nodes r.1 r.2 else s.nodes }
      | _ => none
  | .finish i =>
      match s.running[i]? with
      | some (_, []) => some { s with running := s.running.eraseIdx i, permits := s.permits + 1 }
      | _ => none

/-- The state after a sequence of actions. -/
def run (cutoff : String) (o : Outcomes) : PassState → List Action → Option PassState
  | s, [] => some s
  | s, a :: as => (step cutoff o s a).bind fun s' => run cutoff o s' as

/-- The pass begins after the node list. -/
def start (nodes : List Node) (limit : ℕ) : PassState where
  racks := racksOf nodes
  permits := limit
  spawned := []
  running := []
  nodes := nodes

/-- The pass is over: every rack was visited and every task awaited. -/
def PassState.Done (s : PassState) : Prop := s.racks = [] ∧ s.running = []

/-- The patches that are still to be sent. -/
def PassState.pending (s : PassState) : List (String × MetaPatch) := s.running.flatMap Prod.snd

/-- The tasks that the rest of the loop will spawn. -/
def PassState.planned (cutoff : String) (s : PassState) : List Task :=
  s.racks.filterMap (taskFor cutoff)

/-- What an action can do. -/
inductive StepSpec (cutoff : String) (o : Outcomes) (s s' : PassState) : Prop where
  | skip (hplan : s.planned cutoff = s'.planned cutoff) (hspawned : s'.spawned = s.spawned)
      (hrunning : s'.running = s.running) (hnodes : s'.nodes = s.nodes)
  | spawn (t : Task) (hplan : s.planned cutoff = t :: s'.planned cutoff)
      (hspawned : s'.spawned = s.spawned ++ [t])
      (hrunning : s'.running = s.running ++ [(t, t.requests o)]) (hnodes : s'.nodes = s.nodes)
  | patch (r : String × MetaPatch) (hplan : s.planned cutoff = s'.planned cutoff)
      (hspawned : s'.spawned = s.spawned) (hpending : s.pending.Perm (r :: s'.pending))
      (hnodes : s'.nodes = if o.landed r.1 then patchNode s.nodes r.1 r.2 else s.nodes)
  | finish (hplan : s.planned cutoff = s'.planned cutoff) (hspawned : s'.spawned = s.spawned)
      (hpending : s.pending.Perm s'.pending) (hnodes : s'.nodes = s.nodes)

/-- The patches of a task leave the pending ones as it sends them. -/
lemma flatMap_set_perm {α β : Type} {l : List (α × List β)} {i : ℕ} {t : α} {r : β} {rest : List β}
    (h : l[i]? = some (t, r :: rest)) :
    (l.flatMap Prod.snd).Perm (r :: (l.set i (t, rest)).flatMap Prod.snd) := by
  induction l generalizing i with
  | nil => simp at h
  | cons x l ih =>
      cases i with
      | zero =>
          obtain rfl : x = (t, r :: rest) := by simpa using h
          simp
      | succ i =>
          rw [List.getElem?_cons_succ] at h
          rw [List.set_cons_succ, List.flatMap_cons, List.flatMap_cons]
          exact ((ih h).append_left x.2).trans List.perm_middle

lemma flatMap_eraseIdx_perm {α β : Type} {l : List (α × List β)} {i : ℕ} {t : α}
    (h : l[i]? = some (t, [])) : l.flatMap Prod.snd = (l.eraseIdx i).flatMap Prod.snd := by
  induction l generalizing i with
  | nil => simp at h
  | cons x l ih =>
      cases i with
      | zero =>
          obtain rfl : x = (t, []) := by simpa using h
          simp
      | succ i =>
          rw [List.getElem?_cons_succ] at h
          rw [List.eraseIdx_cons_succ, List.flatMap_cons, List.flatMap_cons, ih h]

/-- **The step lemma**: every action is one of four. -/
theorem step_spec {cutoff : String} {o : Outcomes} {s s' : PassState} {a : Action}
    (h : step cutoff o s a = some s') : StepSpec cutoff o s s' := by
  cases a with
  | visit =>
      simp only [step] at h
      split at h
      · simp at h
      · rename_i entry racks hracks
        split at h
        · rename_i htask
          obtain rfl := Option.some.inj h
          exact .skip (by simp [PassState.planned, hracks, htask]) rfl rfl rfl
        · rename_i t htask
          split_ifs at h
          obtain rfl := Option.some.inj h
          exact .spawn t (by simp [PassState.planned, hracks, htask]) rfl rfl rfl
  | patch i =>
      simp only [step] at h
      split at h
      · rename_i t r rest hi
        obtain rfl := Option.some.inj h
        exact .patch r rfl rfl (flatMap_set_perm hi) rfl
      · simp at h
  | finish i =>
      simp only [step] at h
      split at h
      · rename_i t hi
        obtain rfl := Option.some.inj h
        exact .finish rfl rfl (.of_eq (flatMap_eraseIdx_perm hi)) rfl
      · simp at h

/-! ### Whole passes -/

/-- The requests of a pass that reach a node. -/
def landedRequests (o : Outcomes) (reqs : List (String × MetaPatch)) : List (String × MetaPatch) :=
  reqs.filter fun r => o.landed r.1

/-- The requests of a whole pass that reach a node, in the order of the plan. -/
def passRequests (nodes : List Node) (cutoff : String) (o : Outcomes) : List (String × MetaPatch) :=
  landedRequests o ((plan nodes cutoff).flatMap (Task.requests o))

/-- The cluster after a pass. -/
def passResult (nodes : List Node) (cutoff : String) (o : Outcomes) : List Node :=
  patchNodes nodes (passRequests nodes cutoff o)

/-- The invariant of a pass over `nodes`: the loop follows the plan, and the requests of
the spawned tasks are those sent, which made the cluster what it is, and those
pending. -/
structure PassInv (nodes : List Node) (cutoff : String) (o : Outcomes) (s : PassState) : Prop where
  follows : s.spawned ++ s.planned cutoff = plan nodes cutoff
  sent : ∃ sent, (sent ++ s.pending).Perm (s.spawned.flatMap (Task.requests o)) ∧
    s.nodes = patchNodes nodes (landedRequests o sent)

lemma passInv_start (nodes : List Node) (cutoff : String) (o : Outcomes) (limit : ℕ) :
    PassInv nodes cutoff o (start nodes limit) where
  follows := rfl
  sent := ⟨[], .refl _, rfl⟩

lemma patchNodes_landed_append (nodes : List Node) (o : Outcomes) (sent : List (String × MetaPatch))
    (r : String × MetaPatch) :
    patchNodes nodes (landedRequests o (sent ++ [r])) =
      if o.landed r.1 then patchNode (patchNodes nodes (landedRequests o sent)) r.1 r.2
      else patchNodes nodes (landedRequests o sent) := by
  rw [landedRequests, List.filter_append, patchNodes_append]
  by_cases h : o.landed r.1 <;> simp [h, landedRequests]

/-- Every action keeps the invariant. -/
lemma PassInv.step {nodes : List Node} {cutoff : String} {o : Outcomes} {s s' : PassState}
    (h : StepSpec cutoff o s s') (hi : PassInv nodes cutoff o s) : PassInv nodes cutoff o s' := by
  obtain ⟨hfollows, sent, hperm, hnodes⟩ := hi
  cases h with
  | skip hplan hspawned hrunning hnodes' =>
      refine ⟨by rwa [hspawned, ← hplan], sent, ?_, by rw [hnodes', hnodes]⟩
      rwa [hspawned, PassState.pending, hrunning]
  | spawn t hplan hspawned hrunning hnodes' =>
      refine ⟨?_, sent, ?_, by rw [hnodes', hnodes]⟩
      · rw [hspawned, List.append_assoc, List.singleton_append, ← hplan, hfollows]
      · rw [hspawned, PassState.pending, hrunning, List.flatMap_append, List.flatMap_append,
          ← List.append_assoc]
        simpa [PassState.pending] using hperm.append_right (t.requests o)
  | patch r hplan hspawned hpending hnodes' =>
      refine ⟨by rwa [hspawned, ← hplan], sent ++ [r], ?_, ?_⟩
      · rw [hspawned, List.append_assoc, List.singleton_append]
        exact (hpending.symm.append_left sent).trans hperm
      · rw [patchNodes_landed_append, ← hnodes, hnodes']
  | finish hplan hspawned hpending hnodes' =>
      refine ⟨by rwa [hspawned, ← hplan], sent, ?_, by rw [hnodes', hnodes]⟩
      rw [hspawned]
      exact (hpending.symm.append_left sent).trans hperm

/-- The invariant holds in every reachable state. -/
lemma PassInv.run {nodes : List Node} {cutoff : String} {o : Outcomes} {as : List Action}
    {s s' : PassState} (hi : PassInv nodes cutoff o s) (h : run cutoff o s as = some s') :
    PassInv nodes cutoff o s' := by
  induction as generalizing s with
  | nil =>
      obtain rfl := Option.some.inj h
      exact hi
  | cons a as ih =>
      obtain ⟨s₁, hstep, hrest⟩ := Option.bind_eq_some_iff.mp h
      exact ih (hi.step (step_spec hstep)) hrest

/-- The patches of a task go to its nodes. -/
lemma map_fst_requests (o : Outcomes) (t : Task) : (t.requests o).map Prod.fst = t.nodes := by
  cases t <;> rfl

lemma map_fst_flatMap_requests (o : Outcomes) (ts : List Task) :
    (ts.flatMap (Task.requests o)).map Prod.fst = ts.flatMap Task.nodes := by
  rw [List.map_flatMap]
  simp only [map_fst_requests]

/-- **The result of a pass** does not depend on the interleaving, nor on the number of
permits. -/
theorem nodes_of_done {nodes : List Node} {cutoff : String} {o : Outcomes} {limit : ℕ}
    {as : List Action} {s : PassState} (hnd : DistinctNames nodes)
    (hrun : run cutoff o (start nodes limit) as = some s) (hdone : s.Done) :
    s.nodes = passResult nodes cutoff o := by
  obtain ⟨hfollows, sent, hperm, hnodes⟩ := (passInv_start nodes cutoff o limit).run hrun
  rw [PassState.planned, hdone.1, List.filterMap_nil, List.append_nil] at hfollows
  rw [PassState.pending, hdone.2, List.flatMap_nil, List.append_nil, hfollows] at hperm
  have hperm' := hperm.filter fun r => o.landed r.1
  rw [hnodes, passResult, passRequests]
  refine patchNodes_perm nodes hperm' ?_
  have hnames : (sent.map Prod.fst).Nodup := by
    rw [(hperm.map Prod.fst).nodup_iff, map_fst_flatMap_requests]
    exact flatMap_nodes_plan_nodup hnd cutoff
  exact hnames.sublist (List.filter_sublist.map _)

/-- **The probes of a pass are disjoint and their order does not matter.** In every
reachable state no node is in two of the tasks spawned, no rack has two, and each
task runs on eligible nodes of its rack; and two passes over the same nodes with
the same outcomes end with the same cluster. -/
theorem pass_disjoint_confluent {nodes : List Node} {cutoff : String} {o : Outcomes}
    {limit : ℕ} {as : List Action} {s : PassState} (hnd : DistinctNames nodes)
    (hrun : run cutoff o (start nodes limit) as = some s) :
    (s.spawned.flatMap Task.nodes).Nodup ∧ (s.spawned.map Task.rack).Nodup ∧
      (∀ t ∈ s.spawned, t.Sound nodes) ∧
      ∀ (limit' : ℕ) (as' : List Action) (s' : PassState),
        run cutoff o (start nodes limit') as' = some s' → s.Done → s'.Done →
          s.nodes = s'.nodes := by
  have hfollows := ((passInv_start nodes cutoff o limit).run hrun).follows
  have hsub : s.spawned.Sublist (plan nodes cutoff) := by
    rw [← hfollows]
    exact List.sublist_append_left _ _
  refine ⟨?_, ?_, fun t ht => sound_of_mem_plan hnd (hsub.subset ht), ?_⟩
  · exact (flatMap_nodes_plan_nodup hnd cutoff).sublist (hsub.flatMap _)
  · exact (map_rack_plan_nodup nodes cutoff).sublist (hsub.map _)
  · intro limit' as' s' hrun' hdone hdone'
    rw [nodes_of_done hnd hrun hdone, nodes_of_done hnd hrun' hdone']

/-- Two nodes in one rack and a third alone: with one permit the probes run one after
the other, with two their patches may interleave. -/
theorem pass_disjoint_confluent_three :
    ∃ s s' : PassState,
      run "2026-05-07T12:00:00Z" (allTimeOut "2026-05-07T12:01:00Z")
        (start [rdmaNode "a" "r1", rdmaNode "b" "r1", rdmaNode "c" "r2"] 1)
        [.visit, .patch 0, .patch 0, .finish 0, .visit, .patch 0, .finish 0] = some s ∧
      run "2026-05-07T12:00:00Z" (allTimeOut "2026-05-07T12:01:00Z")
        (start [rdmaNode "a" "r1", rdmaNode "b" "r1", rdmaNode "c" "r2"] 2)
        [.visit, .visit, .patch 0, .patch 1, .patch 0, .finish 1, .finish 0] = some s' ∧
      s.spawned.map Task.nodes = [["a", "b"], ["c"]] ∧ s.nodes = s'.nodes := by
  have hs : (run "2026-05-07T12:00:00Z" (allTimeOut "2026-05-07T12:01:00Z")
        (start [rdmaNode "a" "r1", rdmaNode "b" "r1", rdmaNode "c" "r2"] 1)
        [.visit, .patch 0, .patch 0, .finish 0, .visit, .patch 0, .finish 0]).map
      (fun s => (s.racks.isEmpty, s.running.isEmpty, s.spawned.map Task.nodes)) =
        some (true, true, [["a", "b"], ["c"]]) := by decide
  have hs' : (run "2026-05-07T12:00:00Z" (allTimeOut "2026-05-07T12:01:00Z")
        (start [rdmaNode "a" "r1", rdmaNode "b" "r1", rdmaNode "c" "r2"] 2)
        [.visit, .visit, .patch 0, .patch 1, .patch 0, .finish 1, .finish 0]).map
      (fun s => (s.racks.isEmpty, s.running.isEmpty)) = some (true, true) := by decide
  obtain ⟨s, hrun, hs⟩ := Option.map_eq_some_iff.mp hs
  obtain ⟨s', hrun', hs'⟩ := Option.map_eq_some_iff.mp hs'
  simp only [Prod.mk.injEq, List.isEmpty_iff] at hs hs'
  exact ⟨s, s', hrun, hrun', hs.2.2, (pass_disjoint_confluent (by decide) hrun).2.2.2 _ _ _ hrun'
    ⟨hs.1, hs.2.1⟩ ⟨hs'.1, hs'.2⟩⟩

end Accelrd.Prober
