import Mathlib.Tactic
import Accelrd.Prober.Rack

/-!
The whole cluster over many reconcile passes, with nodes that appear, change their
labels and become unready in between, and with patches that fail.

* `Run`: the histories of a cluster.
* `run_stampedSince`: what a landed patch wrote is still there, or something newer.
* `run_recorded`: what a node says about its last partner was written by a probe of
  the two.
* `pairwise_spaced`: no pair and no loopback target is probed again within a cadence.
* `partner_stamped`: the records of a pair are mutual where both patches landed.
-/

namespace Accelrd.Prober

open Std Kube

/-! ### Histories -/

/-- The key of `last-rack-partner`. -/
def annLastPartner : String := "accel-test.lunnova.dev/last-rack-partner"

/-- The probe records of a node are kept. -/
def SameRecords (n n' : Node) : Prop :=
  ∀ k ∈ Keys.rack.family ++ Keys.loopback.family,
    n'.metadata.annotationAt k = n.metadata.annotationAt k

/-- What may happen to a cluster between two passes: nodes appear, and those there keep
their names and their probe records; anything else about them may change. -/
structure Change (Appears : Node → Prop) (nodes nodes' : List Node) : Prop where
  distinct : DistinctNames nodes'
  kept : ∀ n ∈ nodes, ∀ x, n.isNamed x → ∃ n' ∈ nodes', n'.isNamed x ∧ SameRecords n n'
  new : ∀ n' ∈ nodes', Appears n' ∨ ∃ n ∈ nodes, ∃ x, n.isNamed x ∧ n'.isNamed x ∧ SameRecords n n'

/-- A pass: the cluster it found, and what became of it. -/
structure Pass where
  nodes : List Node
  round : Round

/-- The tasks of the pass. -/
def Pass.tasks (cadence : ℕ) (p : Pass) : List Task := plan p.nodes (p.round.cutoff cadence)

/-- The cluster after the pass. -/
def Pass.result (cadence : ℕ) (p : Pass) : List Node := afterCycle p.nodes (p.round.cycle cadence)

/-- The clock readings of a pass, up to the year 9999: patches come after its start. -/
def Pass.Timely (cadence : ℕ) (p : Pass) : Prop :=
  (p.round.clock : ℤ) < Time.yearTenThousand ∧ ∀ t ∈ p.tasks cadence,
    p.round.clock ≤ p.round.stamp t ∧ (p.round.stamp t : ℤ) < Time.yearTenThousand

/-- The pass `q` starts after the pass `p` is over. -/
def Pass.Before (cadence : ℕ) (p q : Pass) : Prop :=
  p.round.clock ≤ q.round.clock ∧ ∀ t ∈ p.tasks cadence, p.round.stamp t ≤ q.round.clock

instance (cadence : ℕ) (p : Pass) : Decidable (p.Timely cadence) :=
  inferInstanceAs (Decidable ((p.round.clock : ℤ) < Time.yearTenThousand ∧ ∀ t ∈ p.tasks cadence,
    p.round.clock ≤ p.round.stamp t ∧ (p.round.stamp t : ℤ) < Time.yearTenThousand))

instance (cadence : ℕ) (p q : Pass) : Decidable (p.Before cadence q) :=
  inferInstanceAs (Decidable (p.round.clock ≤ q.round.clock ∧
    ∀ t ∈ p.tasks cadence, p.round.stamp t ≤ q.round.clock))

/-- The histories of a cluster whose nodes satisfy `Appears` when they appear: the passes
so far, and the cluster they led to. -/
inductive Run (cadence : ℕ) (Appears : Node → Prop) : List Pass → List Node → Prop where
  | start {nodes : List Node} (distinct : DistinctNames nodes) (new : ∀ n ∈ nodes, Appears n) :
      Run cadence Appears [] nodes
  | change {ps : List Pass} {nodes nodes' : List Node} (run : Run cadence Appears ps nodes)
      (h : Change Appears nodes nodes') : Run cadence Appears ps nodes'
  | pass {ps : List Pass} {p : Pass} (run : Run cadence Appears ps p.nodes)
      (timely : p.Timely cadence) (before : ∀ q ∈ ps, q.Before cadence p) :
      Run cadence Appears (ps ++ [p]) (p.result cadence)

lemma Run.distinct {cadence : ℕ} {Appears : Node → Prop} {ps : List Pass} {nodes : List Node}
    (h : Run cadence Appears ps nodes) : DistinctNames nodes := by
  induction h with
  | start distinct new => exact distinct
  | change run h ih => exact h.distinct
  | pass run timely before ih => exact ih.afterCycle _

/-! ### One node in one pass -/

/-- The family of keys that a task writes. -/
def Task.keys : Task → Keys
  | .pair .. => Keys.rack
  | .loopback .. => Keys.loopback

/-- The two timestamps of a node. -/
def atKeys : List String := [annLastAt, annLbLastAt]

lemma Task.lastAt_mem (t : Task) : t.keys.lastAt ∈ atKeys := by
  cases t
  · exact List.mem_cons_self
  · exact List.mem_cons_of_mem _ List.mem_cons_self

lemma mem_records_of_mem_atKeys : ∀ k ∈ atKeys, k ∈ Keys.rack.family ++ Keys.loopback.family := by
  decide

/-- A node in a pass: nothing, or the patch of its only task. -/
lemma receive_cases {nodes : List Node} {cutoff : String} {o : Outcomes} {n : Node} {x : String}
    (hnd : DistinctNames nodes) (hx : n.isNamed x) :
    n.receive (passRequests nodes cutoff o) = n ∨
      ∃ t ∈ plan nodes cutoff, ∃ p, (x, p) ∈ t.requests o ∧ o.landed x ∧
        n.receive (passRequests nodes cutoff o) = n.merge p := by
  by_cases h : ∀ r ∈ passRequests nodes cutoff o, ¬ n.isNamed r.1
  · exact Or.inl (Node.receive_of_notMem h)
  · push Not at h
    obtain ⟨⟨name, p⟩, hreq, hn⟩ := h
    obtain rfl : x = name := Option.some.inj (hx.symm.trans hn)
    obtain ⟨t, ht, htreq, hland⟩ := mem_passRequests.mp hreq
    exact Or.inr ⟨t, ht, p, htreq, hland,
      Node.receive_of_mem (map_fst_passRequests_nodup hnd cutoff o) hreq hx⟩

/-- A task whose patch of `x` lands reaches the node. -/
lemma receive_of_mem_nodes {nodes : List Node} {cutoff : String} {o : Outcomes} {n : Node}
    {x : String} {t : Task} (hnd : DistinctNames nodes) (hx : n.isNamed x)
    (ht : t ∈ plan nodes cutoff) (hmem : x ∈ t.nodes) (hland : o.landed x) :
    ∃ p, (x, p) ∈ t.requests o ∧ n.receive (passRequests nodes cutoff o) = n.merge p := by
  rw [← map_fst_requests o] at hmem
  obtain ⟨⟨_, p⟩, hreq, rfl⟩ := List.mem_map.mp hmem
  exact ⟨p, hreq, Node.receive_of_mem (map_fst_passRequests_nodup hnd cutoff o)
    (mem_passRequests.mpr ⟨t, ht, hreq, hland⟩) hx⟩

/-- The body of a patch. -/
lemma exists_body {o : Outcomes} {t : Task} {x : String} {p : MetaPatch}
    (h : (x, p) ∈ t.requests o) :
    ∃ partner, p = MetaPatch.mk none (some (buildBody t.keys partner (o.now t) (o.verdict t))) := by
  cases t with
  | pair rack server client =>
      rcases List.mem_cons.mp h with h | h
      · exact ⟨_, (Prod.mk.inj h).2⟩
      · exact ⟨_, (Prod.mk.inj (List.mem_singleton.mp h)).2⟩
  | loopback rack node => exact ⟨_, (Prod.mk.inj (List.mem_singleton.mp h)).2⟩

/-- What a patch says about the timestamps. -/
lemma annotationWord_at {o : Outcomes} {t : Task} {x : String} {p : MetaPatch}
    (h : (x, p) ∈ t.requests o) {k : String} (hk : k ∈ atKeys) :
    p.annotationWord k = if k = t.keys.lastAt then some (some (o.now t)) else none := by
  obtain ⟨partner, rfl⟩ := exists_body h
  split_ifs with hkt
  · rw [hkt]
    exact buildBody_lastAt t.keys partner _ _
  · refine buildBody_eq_none_of_notMem_family ?_
    cases t with
    | pair rack server client =>
        have : ∀ k ∈ atKeys, k ≠ Keys.rack.lastAt → k ∉ Keys.rack.family := by decide
        exact this k hk hkt
    | loopback rack node =>
        have : ∀ k ∈ atKeys, k ≠ Keys.loopback.lastAt → k ∉ Keys.loopback.family := by decide
        exact this k hk hkt

/-! ### What was written stays, or something newer -/

/-- The node `x` has a timestamp under `k`, written at a clock reading of `s` or later. -/
def StampedSince (k x : String) (s : ℕ) (nodes : List Node) : Prop :=
  ∃ n ∈ nodes, n.isNamed x ∧ ∃ s', s ≤ s' ∧ (s' : ℤ) < Time.yearTenThousand ∧
    n.metadata.annotationAt k = some (Time.nowRfc3339 s')

lemma mem_result {cadence : ℕ} {p : Pass} {n : Node} (h : n ∈ p.nodes) :
    n.receive (passRequests p.nodes (p.round.cutoff cadence) p.round.outcomes)
      ∈ p.result cadence := by
  rw [Pass.result, afterCycle, passResult, patchNodes_eq_map]
  exact List.mem_map_of_mem h

lemma isNamed_receive {n : Node} {reqs : List (String × MetaPatch)} {x : String} (h : n.isNamed x) :
    (n.receive reqs).isNamed x := by
  induction reqs generalizing n with
  | nil => exact h
  | cons r reqs ih =>
      rw [Node.receive_cons]
      refine ih ?_
      split_ifs
      · exact h
      · exact h

/-- A later pass keeps the timestamp or writes a newer one. -/
lemma StampedSince.pass {cadence : ℕ} {p : Pass} {k x : String} {s : ℕ}
    (h : StampedSince k x s p.nodes) (hk : k ∈ atKeys) (hnd : DistinctNames p.nodes)
    (htimely : p.Timely cadence) (hs : s ≤ p.round.clock) :
    StampedSince k x s (p.result cadence) := by
  obtain ⟨n, hn, hx, s', hs', hyear, hann⟩ := h
  refine ⟨_, mem_result hn, isNamed_receive hx, ?_⟩
  rcases receive_cases hnd hx with heq | ⟨t, ht, q, hreq, -, heq⟩
  · rw [heq]
    exact ⟨s', hs', hyear, hann⟩
  · obtain ⟨hclock, hyear'⟩ := htimely.2 t ht
    rw [heq, Node.merge, ObjectMeta.annotationAt_merge, annotationWord_at hreq hk]
    split_ifs
    · exact ⟨p.round.stamp t, hs.trans hclock, hyear', rfl⟩
    · exact ⟨s', hs', hyear, hann⟩

lemma StampedSince.change {Appears : Node → Prop} {nodes nodes' : List Node} {k x : String} {s : ℕ}
    (h : StampedSince k x s nodes) (hk : k ∈ atKeys) (hchange : Change Appears nodes nodes') :
    StampedSince k x s nodes' := by
  obtain ⟨n, hn, hx, s', hs', hyear, hann⟩ := h
  obtain ⟨n', hn', hx', hsame⟩ := hchange.kept n hn x hx
  exact ⟨n', hn', hx', s', hs', hyear, (hsame k (mem_records_of_mem_atKeys k hk)).trans hann⟩

/-- The patch of a task that lands is such a timestamp. -/
lemma stampedSince_of_task {cadence : ℕ} {p : Pass} {t : Task} {x : String}
    (hnd : DistinctNames p.nodes) (htimely : p.Timely cadence) (ht : t ∈ p.tasks cadence)
    (hx : x ∈ t.nodes) (hland : p.round.landed x) :
    StampedSince t.keys.lastAt x (p.round.stamp t) (p.result cadence) := by
  obtain ⟨v, hv, rfl⟩ := (nodes_of_mem_plan hnd ht).2 x hx
  obtain ⟨n, hn, -, hview⟩ := mem_eligible.mp (mem_members.mp hv).1
  have hname : n.isNamed v.name := (fromNode_eq_some_iff.mp hview).1
  obtain ⟨q, hreq, heq⟩ := receive_of_mem_nodes (o := p.round.outcomes) hnd hname ht hx hland
  refine ⟨_, mem_result hn, isNamed_receive hname, p.round.stamp t, le_rfl, (htimely.2 t ht).2, ?_⟩
  rw [heq, Node.merge, ObjectMeta.annotationAt_merge, annotationWord_at hreq t.lastAt_mem,
    if_pos rfl]
  rfl

/-- **What a landed patch wrote is still there, or something newer.** -/
theorem run_stampedSince {cadence : ℕ} {Appears : Node → Prop} {ps : List Pass} {nodes : List Node}
    (h : Run cadence Appears ps nodes) :
    ∀ p ∈ ps, ∀ t ∈ p.tasks cadence, ∀ x ∈ t.nodes, p.round.landed x →
      StampedSince t.keys.lastAt x (p.round.stamp t) nodes := by
  induction h with
  | start distinct new => simp
  | change run hchange ih =>
      exact fun p hp t ht x hx hland => (ih p hp t ht x hx hland).change t.lastAt_mem hchange
  | pass run timely before ih =>
      intro q hq t ht x hx hland
      rcases List.mem_append.mp hq with hq | hq
      · exact (ih q hq t ht x hx hland).pass t.lastAt_mem run.distinct timely
          ((before q hq).2 t ht)
      · obtain rfl := List.mem_singleton.mp hq
        exact stampedSince_of_task run.distinct timely ht hx hland

/-! ### Cadence -/

/-- Two tasks probe the same unordered pair, or the same single node. -/
def Task.SameProbe : Task → Task → Prop
  | .pair _ a b, .pair _ a' b' => s(a.name, b.name) = s(a'.name, b'.name)
  | .loopback _ v, .loopback _ v' => v.name = v'.name
  | _, _ => False

/-- Nothing that `p` probed and stamped is probed by `q`, unless a cadence has passed. -/
def Spaced (cadence : ℕ) (p q : Pass) : Prop :=
  ∀ t ∈ p.tasks cadence, ∀ t' ∈ q.tasks cadence, t.SameProbe t' →
    p.round.stamp t + cadence < q.round.clock

lemma Task.SameProbe.nodes {t t' : Task} (h : t.SameProbe t') :
    t.keys = t'.keys ∧ ∀ x ∈ t'.nodes, x ∈ t.nodes := by
  cases t with
  | pair rack a b =>
      cases t' with
      | pair rack' a' b' =>
          refine ⟨rfl, ?_⟩
          simp only [Task.nodes, List.mem_cons, List.not_mem_nil, or_false]
          rcases Sym2.eq_iff.mp h with ⟨h₁, h₂⟩ | ⟨h₁, h₂⟩ <;> grind
      | loopback rack' v' => exact h.elim
  | loopback rack v =>
      cases t' with
      | pair rack' a' b' => exact h.elim
      | loopback rack' v' =>
          refine ⟨rfl, ?_⟩
          rw [Task.nodes, Task.nodes, (h : v.name = v'.name)]
          exact fun x hx => hx

/-- A node is known by its name. -/
lemma DistinctNames.eq_of_isNamed {nodes : List Node} (h : DistinctNames nodes) {n m : Node}
    {x : String} (hn : n ∈ nodes) (hm : m ∈ nodes) (hnx : n.isNamed x) (hmx : m.isNamed x) :
    n = m := by
  by_contra hne
  have hsymm : Std.Symm fun n m : Node => ∀ y, n.metadata.name = some y →
      ∀ y', m.metadata.name = some y' → y ≠ y' :=
    ⟨fun _ _ hab y hy y' hy' heq => hab y' hy' y hy heq.symm⟩
  exact (List.pairwise_filterMap.mp h).forall hn hm hne x hnx x hmx rfl

/-- A member of a rack that was stamped since `s` shows such a timestamp. -/
lemma exists_stamp_of_member {nodes : List Node} {r k : String} {v : NodeView} {s : ℕ}
    (hnd : DistinctNames nodes) (hv : v ∈ members nodes r) (h : StampedSince k v.name s nodes) :
    ∃ s', s ≤ s' ∧ (s' : ℤ) < Time.yearTenThousand ∧
      (k = annLastAt → v.lastAt = some (Time.nowRfc3339 s')) ∧
      (k = annLbLastAt → v.lastLoopbackAt = some (Time.nowRfc3339 s')) := by
  obtain ⟨n, hn, hx, s', hs', hyear, hann⟩ := h
  obtain ⟨m, hm, -, hview⟩ := mem_eligible.mp (mem_members.mp hv).1
  obtain ⟨hname, -, -, hlast, hloop⟩ := fromNode_eq_some_iff.mp hview
  obtain rfl := hnd.eq_of_isNamed hn hm hx hname
  exact ⟨s', hs', hyear, fun hk => by rw [hlast, ← hk, hann], fun hk => by rw [hloop, ← hk, hann]⟩

/-- The cadence guard, seen by the clock. -/
lemma add_lt_of_lt_cutoff {cadence s' : ℕ} {c : Round} (hcadence : cadence < 2 ^ 63)
    (hclock : (c.clock : ℤ) < Time.yearTenThousand) (hyear : (s' : ℤ) < Time.yearTenThousand)
    (h : Time.nowRfc3339 s' < c.cutoff cadence) : s' + cadence < c.clock := by
  rw [Time.nowRfc3339_eq hyear, Round.cutoff, Time.nowMinusSecs_eq hclock hcadence] at h
  have hlt := Time.lt_of_rfc3339At_lt (by rw [Time.yearZero]; omega) hyear h
  omega

/-- A pass picks what was stamped since `s` only after a cadence. -/
lemma add_lt_of_stampedSince {cadence : ℕ} {q : Pass} {t : Task} {s : ℕ}
    (hcadence : cadence < 2 ^ 63) (hnd : DistinctNames q.nodes) (htimely : q.Timely cadence)
    (ht : t ∈ q.tasks cadence)
    (h : ∀ x ∈ t.nodes, StampedSince t.keys.lastAt x s q.nodes) : s + cadence < q.round.clock := by
  have htask := taskFor_of_mem_plan ht
  rcases taskFor_eq_some_iff.mp htask with ⟨⟨a, b⟩, hpick, heq⟩ | ⟨-, v, hpick, heq⟩
  · rw [heq] at h
    obtain ⟨ha, hb⟩ := pickPair_mem hpick
    obtain ⟨sa, hsa, hya, hla, -⟩ := exists_stamp_of_member hnd ha (h _ List.mem_cons_self)
    obtain ⟨sb, hsb, hyb, hlb, -⟩ :=
      exists_stamp_of_member hnd hb (h _ (List.mem_cons_of_mem _ List.mem_cons_self))
    rcases pickPair_guard hpick (hla rfl) (hlb rfl) with hlt | hlt
    · have := add_lt_of_lt_cutoff hcadence htimely.1 hya hlt
      omega
    · have := add_lt_of_lt_cutoff hcadence htimely.1 hyb hlt
      omega
  · rw [heq] at h
    obtain ⟨hmem, hguard⟩ := pickLoopback_eq_some_iff.mp hpick
    have hv : v ∈ members q.nodes t.rack := by
      rw [show members q.nodes t.rack = [v] from hmem]
      exact List.mem_singleton_self v
    obtain ⟨sv, hsv, hyv, -, hlv⟩ := exists_stamp_of_member hnd hv (h _ List.mem_cons_self)
    have := add_lt_of_lt_cutoff hcadence htimely.1 hyv (hguard _ (hlv rfl))
    omega

/-- **Probes stay sparse**: in every history in which the patches land, no pair that was
probed and stamped at `s` is picked by a pass starting at `t`, and no loopback target
either, unless `t - s` exceeds the cadence. -/
theorem pairwise_spaced {cadence : ℕ} {ps : List Pass} {nodes : List Node}
    (hcadence : cadence < 2 ^ 63) (h : Run cadence (fun _ => True) ps nodes)
    (hland : ∀ p ∈ ps, ∀ t ∈ p.tasks cadence, ∀ x ∈ t.nodes, p.round.landed x) :
    ps.Pairwise (Spaced cadence) := by
  induction h with
  | start distinct new => exact List.Pairwise.nil
  | change run hchange ih => exact ih hland
  | @pass ps q run timely before ih =>
      have hland' : ∀ p ∈ ps, ∀ t ∈ p.tasks cadence, ∀ x ∈ t.nodes, p.round.landed x :=
        fun p hp => hland p (List.mem_append_left _ hp)
      refine List.pairwise_append.mpr ⟨ih hland', List.pairwise_singleton _ _, ?_⟩
      intro p hp q' hq' t ht t' ht' hsame
      obtain rfl := List.mem_singleton.mp hq'
      obtain ⟨hkeys, hnodes⟩ := hsame.nodes
      refine add_lt_of_stampedSince hcadence run.distinct timely ht' fun x hx => ?_
      rw [← hkeys]
      exact run_stampedSince run p hp t ht x (hnodes x hx) (hland' p hp t ht x (hnodes x hx))

/-- Two nodes, probed at the epoch and again when the cadence is over. -/
theorem pairwise_spaced_two :
    List.Pairwise (Spaced 3600) [⟨[rdmaNode "a" "r1", rdmaNode "b" "r1"], timeOutRound 0⟩,
      ⟨Pass.result 3600 ⟨[rdmaNode "a" "r1", rdmaNode "b" "r1"], timeOutRound 0⟩,
        timeOutRound 3601⟩] := by
  have h₁ := @Run.pass 3600 (fun _ => True) []
    ⟨[rdmaNode "a" "r1", rdmaNode "b" "r1"], timeOutRound 0⟩
    (.start (by decide) fun _ _ => trivial) (by decide) (by decide)
  have h₂ := @Run.pass 3600 (fun _ => True) _
    ⟨Pass.result 3600 ⟨[rdmaNode "a" "r1", rdmaNode "b" "r1"], timeOutRound 0⟩, timeOutRound 3601⟩
    h₁ (by decide) (by decide)
  exact pairwise_spaced (by decide) h₂ (by decide)

/-! ### Who wrote the record of a pair -/

/-- A node without the record of a pair probe. -/
def NeverPaired (n : Node) : Prop :=
  n.metadata.annotationAt annLastAt = none ∧ n.metadata.annotationAt annLastPartner = none

instance (n : Node) : Decidable (NeverPaired n) :=
  inferInstanceAs (Decidable (n.metadata.annotationAt annLastAt = none ∧
    n.metadata.annotationAt annLastPartner = none))

/-- The pass probed `x` with `y`, its patch of `x` landed, and this is its timestamp. -/
def Pass.Wrote (cadence : ℕ) (p : Pass) (x y at_ : String) : Prop :=
  ∃ rack a b, Task.pair rack a b ∈ p.tasks cadence ∧
    ((a.name = x ∧ b.name = y) ∨ (a.name = y ∧ b.name = x)) ∧ p.round.landed x ∧
      at_ = Time.nowRfc3339 (p.round.stamp (.pair rack a b))

/-- The record of a node was written by one of the passes, if it has one. -/
def Recorded (cadence : ℕ) (ps : List Pass) (n : Node) : Prop :=
  NeverPaired n ∨ ∃ p ∈ ps, ∃ x y at_, n.isNamed x ∧ n.metadata.annotationAt annLastAt = some at_ ∧
    n.metadata.annotationAt annLastPartner = some y ∧ p.Wrote cadence x y at_

lemma Recorded.mono {cadence : ℕ} {ps ps' : List Pass} {n : Node} (h : Recorded cadence ps n)
    (hsub : ps ⊆ ps') : Recorded cadence ps' n := by
  rcases h with h | ⟨p, hp, h⟩
  · exact Or.inl h
  · exact Or.inr ⟨p, hsub hp, h⟩

/-- The record depends on the name and on two annotations. -/
lemma Recorded.congr {cadence : ℕ} {ps : List Pass} {n n' : Node} (h : Recorded cadence ps n)
    (hname : n'.metadata.name = n.metadata.name)
    (hat : n'.metadata.annotationAt annLastAt = n.metadata.annotationAt annLastAt)
    (hpartner : n'.metadata.annotationAt annLastPartner = n.metadata.annotationAt annLastPartner) :
    Recorded cadence ps n' := by
  rcases h with ⟨h₁, h₂⟩ | ⟨p, hp, x, y, at_, hx, h₁, h₂, hw⟩
  · exact Or.inl ⟨hat.trans h₁, hpartner.trans h₂⟩
  · exact Or.inr ⟨p, hp, x, y, at_, hname.trans hx, hat.trans h₁, hpartner.trans h₂, hw⟩

/-- What a pair probe writes about the partner. -/
lemma annotationWord_partner (partner now : String) (verdict : Verdict) :
    (MetaPatch.mk none (some (buildBody Keys.rack (some partner) now verdict))).annotationWord
      annLastPartner = some (some partner) :=
  getElem?_buildBody (List.mem_cons_of_mem _ (List.mem_append_left _ List.mem_cons_self))

/-- A loopback probe says nothing about pairs. -/
lemma annotationWord_loopback {k now : String} {verdict : Verdict} (hk : k ∉ Keys.loopback.family) :
    (MetaPatch.mk none (some (buildBody Keys.loopback none now verdict))).annotationWord k = none :=
  buildBody_eq_none_of_notMem_family hk

/-- One node and one pass. -/
lemma recorded_receive {cadence : ℕ} {ps : List Pass} {p : Pass} {n : Node}
    (hnd : DistinctNames p.nodes) (h : Recorded cadence ps n) :
    Recorded cadence (ps ++ [p])
      (n.receive (passRequests p.nodes (p.round.cutoff cadence) p.round.outcomes)) := by
  have hold := h.mono (List.subset_append_left ps [p])
  cases hname : n.metadata.name with
  | none =>
      rwa [Node.receive_of_notMem]
      intro r _ hr
      rw [Node.isNamed, hname] at hr
      simp at hr
  | some x =>
      rcases receive_cases hnd hname with heq | ⟨t, ht, q, hreq, hland, heq⟩
      · rwa [heq]
      · rw [heq]
        cases t with
        | loopback rack v =>
            obtain ⟨-, rfl⟩ := Prod.mk.inj (List.mem_singleton.mp hreq)
            refine hold.congr rfl ?_ ?_
            · rw [Node.merge, ObjectMeta.annotationAt_merge, annotationWord_loopback (by decide)]
              rfl
            · rw [Node.merge, ObjectMeta.annotationAt_merge, annotationWord_loopback (by decide)]
              rfl
        | pair rack a b =>
            refine Or.inr ⟨p, List.mem_append_right _ List.mem_cons_self, x, ?_⟩
            have hat : q.annotationWord annLastAt
                = some (some (Time.nowRfc3339 (p.round.stamp (.pair rack a b)))) :=
              (annotationWord_at hreq List.mem_cons_self).trans (if_pos rfl)
            obtain ⟨y, hab, hpartner⟩ :
                ∃ y, ((a.name = x ∧ b.name = y) ∨ (a.name = y ∧ b.name = x)) ∧
                q.annotationWord annLastPartner = some (some y) := by
              rcases List.mem_cons.mp hreq with hreq | hreq
              · obtain ⟨rfl, rfl⟩ := Prod.mk.inj hreq
                exact ⟨b.name, Or.inl ⟨rfl, rfl⟩, annotationWord_partner _ _ _⟩
              · obtain ⟨rfl, rfl⟩ := Prod.mk.inj (List.mem_singleton.mp hreq)
                exact ⟨a.name, Or.inr ⟨rfl, rfl⟩, annotationWord_partner _ _ _⟩
            refine ⟨y, _, hname, ?_, ?_, rack, a, b, ht, hab, hland, rfl⟩
            · rw [Node.merge, ObjectMeta.annotationAt_merge, hat]
              rfl
            · rw [Node.merge, ObjectMeta.annotationAt_merge, hpartner]
              rfl

lemma mem_pass_result {cadence : ℕ} {p : Pass} {n' : Node} (h : n' ∈ p.result cadence) :
    ∃ n ∈ p.nodes,
      n' = n.receive (passRequests p.nodes (p.round.cutoff cadence) p.round.outcomes) := by
  rw [Pass.result, afterCycle, passResult, patchNodes_eq_map] at h
  obtain ⟨n, hn, rfl⟩ := List.mem_map.mp h
  exact ⟨n, hn, rfl⟩

/-- **What a node says about its last partner was written by a probe of the two.** -/
theorem run_recorded {cadence : ℕ} {ps : List Pass} {nodes : List Node}
    (h : Run cadence NeverPaired ps nodes) : ∀ n ∈ nodes, Recorded cadence ps n := by
  induction h with
  | start distinct new => exact fun n hn => Or.inl (new n hn)
  | change run hchange ih =>
      intro n' hn'
      rcases hchange.new n' hn' with hnew | ⟨n, hn, x, hx, hx', hsame⟩
      · exact Or.inl hnew
      · refine (ih n hn).congr (hx'.trans hx.symm) (hsame _ (by decide)) (hsame _ (by decide))
  | pass run timely before ih =>
      intro n' hn'
      obtain ⟨n, hn, rfl⟩ := mem_pass_result hn'
      exact recorded_receive run.distinct (ih n hn)

/-- **Records of pairs are mutual where the patches land**: in every history of nodes
without earlier records, whatever patches fail, what `x` says about its last partner
was written by a probe of the two; and if the patch of the partner landed as well,
the partner has a timestamp that is not older. -/
theorem partner_stamped {cadence : ℕ} {ps : List Pass} {nodes : List Node} {a : Node}
    {x y at_ : String} (h : Run cadence NeverPaired ps nodes) (ha : a ∈ nodes) (hx : a.isNamed x)
    (hat : a.metadata.annotationAt annLastAt = some at_)
    (hpartner : a.metadata.annotationAt annLastPartner = some y) :
    ∃ p ∈ ps, p.Wrote cadence x y at_ ∧ (p.round.landed y → ∃ b ∈ nodes, b.isNamed y ∧
      ∃ at_', b.metadata.annotationAt annLastAt = some at_' ∧ at_ ≤ at_') := by
  rcases run_recorded h a ha with hnever | ⟨p, hp, x', y', at_', hx', hat', hpartner', hwrote⟩
  · rw [hnever.1] at hat
    simp at hat
  · obtain rfl : x' = x := Option.some.inj (hx'.symm.trans hx)
    obtain rfl : at_' = at_ := Option.some.inj (hat'.symm.trans hat)
    obtain rfl : y' = y := Option.some.inj (hpartner'.symm.trans hpartner)
    refine ⟨p, hp, hwrote, fun hland => ?_⟩
    obtain ⟨rack, u, v, ht, huv, -, rfl⟩ := hwrote
    have hy : y' ∈ (Task.pair rack u v).nodes := by
      rcases huv with ⟨-, rfl⟩ | ⟨rfl, -⟩ <;> simp [Task.nodes]
    obtain ⟨b, hb, hby, s', hs', hyear, hann⟩ := run_stampedSince h p hp _ ht _ hy hland
    refine ⟨b, hb, hby, _, hann, ?_⟩
    rw [Time.nowRfc3339_eq hyear, Time.nowRfc3339_eq (by omega)]
    refine Time.rfc3339At_le (by omega) ?_ hyear
    rw [Time.yearZero]
    omega

/-- Two nodes after their first probe. -/
theorem partner_stamped_two :
    ∃ p ∈ [(⟨[rdmaNode "a" "r1", rdmaNode "b" "r1"], timeOutRound 0⟩ : Pass)],
      p.Wrote 3600 "a" "b" "1970-01-01T00:00:00Z" ∧ (p.round.landed "b" →
        ∃ b ∈ Pass.result 3600 ⟨[rdmaNode "a" "r1", rdmaNode "b" "r1"], timeOutRound 0⟩,
          b.isNamed "b" ∧ ∃ at_', b.metadata.annotationAt annLastAt = some at_' ∧
            "1970-01-01T00:00:00Z" ≤ at_') := by
  have h₁ := @Run.pass 3600 NeverPaired [] ⟨[rdmaNode "a" "r1", rdmaNode "b" "r1"], timeOutRound 0⟩
    (.start (by decide) (by decide)) (by decide) (by decide)
  have ha : rdmaNode "a" "r1" ∈ [rdmaNode "a" "r1", rdmaNode "b" "r1"] := List.mem_cons_self
  exact partner_stamped h₁ (@mem_result 3600 ⟨_, timeOutRound 0⟩ _ ha) (by decide) (by decide)
    (by decide)

/-- A pass of which only the patch of node `a` is carried out. -/
def halfRound (clock : ℕ) : Round where
  clock := clock
  stamp := fun _ => clock
  verdict := fun _ => .timeout
  landed := fun x => x == "a"

/-- The names, timestamps and partners that the nodes show. -/
def pairRecords (nodes : List Node) : List (Option String × Option String × Option String) :=
  nodes.map fun n =>
    (n.metadata.name, n.metadata.annotationAt annLastAt, n.metadata.annotationAt annLastPartner)

/-- The records of three nodes after two passes at the given clock readings. -/
def recordsAfter (clock₁ clock₂ : ℕ) : List (Option String × Option String × Option String) :=
  pairRecords (Pass.result 3600 ⟨Pass.result 3600
    ⟨[rdmaNode "a" "r1", rdmaNode "b" "r1", rdmaNode "c" "r1"], timeOutRound clock₁⟩,
      timeOutRound clock₂⟩)

/-- A half-applied result: `a` names its partner, whose patch failed and who has no
timestamp. The next pass picks the same pair again, long before the cadence is over.
Where all patches land, the partner still ends up with an older timestamp if the
clock is set back, or if it passes the year `9999`: here `b` names `a`. -/
theorem half_applied :
    (Run 3600 NeverPaired [⟨[rdmaNode "a" "r1", rdmaNode "b" "r1"], halfRound 0⟩]
        (Pass.result 3600 ⟨[rdmaNode "a" "r1", rdmaNode "b" "r1"], halfRound 0⟩) ∧
      pairRecords (Pass.result 3600 ⟨[rdmaNode "a" "r1", rdmaNode "b" "r1"], halfRound 0⟩)
        = [(some "a", some "1970-01-01T00:00:00Z", some "b"), (some "b", none, none)] ∧
      (plan (Pass.result 3600 ⟨[rdmaNode "a" "r1", rdmaNode "b" "r1"], halfRound 0⟩)
        ((halfRound 300).cutoff 3600)).map Task.nodes = [["b", "a"]]) ∧
    recordsAfter 60 0 = [(some "a", some "1970-01-01T00:00:00Z", some "c"),
      (some "b", some "1970-01-01T00:01:00Z", some "a"),
      (some "c", some "1970-01-01T00:00:00Z", some "a")] ∧
    recordsAfter 253402300799 253402300800 = [(some "a", some "10000-01-01T00:00:00Z", some "c"),
      (some "b", some "9999-12-31T23:59:59Z", some "a"),
      (some "c", some "10000-01-01T00:00:00Z", some "a")] :=
  ⟨⟨@Run.pass 3600 NeverPaired [] ⟨[rdmaNode "a" "r1", rdmaNode "b" "r1"], halfRound 0⟩
    (.start (by decide) (by decide)) (by decide) (by decide), by decide, by decide⟩,
    by decide, by decide⟩

end Accelrd.Prober
