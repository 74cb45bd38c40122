import Mathlib.Tactic
import Accelrd.Library.PairRotation
import Accelrd.Prober.Pass
import Accelrd.Time

/-!
One rack over many reconcile cycles.

* `rackPicks_eq`: the picks of a rack are a run of the least-recently-used schedule
  on its slots. The three results below are read off from there.
* `no_starvation`: any `⌈N/2⌉` consecutive picks contain every member.
* `pairs_covered_iff`: the racks in which every pair is picked sooner or later; racks
  of four or more members are not among them.
* `load_le`: at most `⌈N/2⌉` cycles of a window of one cadence pick a pair.
-/

namespace Accelrd.Prober

open Std Kube

/-! ### Cycles -/

/-- One reconcile cycle: its cutoff, and what becomes of its tasks. -/
structure Cycle where
  cutoff : String
  outcomes : Outcomes

/-- The cluster after a cycle. -/
def afterCycle (nodes : List Node) (c : Cycle) : List Node := passResult nodes c.cutoff c.outcomes

lemma DistinctNames.afterCycle {nodes : List Node} (h : DistinctNames nodes) (c : Cycle) :
    DistinctNames (afterCycle nodes c) := h.passResult c.cutoff c.outcomes

/-- The pair that a cycle picks in the rack. -/
def rackPick (r : String) (nodes : List Node) (c : Cycle) : Option (NodeView × NodeView) :=
  pickPair (members nodes r) c.cutoff

/-- The names of the pairs picked in the rack, in order. -/
def rackPicks (r : String) : List Node → List Cycle → List (String × String)
  | _, [] => []
  | nodes, c :: cs =>
      ((rackPick r nodes c).map fun p => (p.1.name, p.2.name)).toList ++
        rackPicks r (afterCycle nodes c) cs

/-- What is picked in the rack is stamped on both members, with a timestamp greater than
every one there. -/
def Stamped (r : String) (nodes : List Node) (c : Cycle) : Prop :=
  ∀ p ∈ rackPick r nodes c, c.outcomes.landed p.1.name ∧ c.outcomes.landed p.2.name ∧
    ∀ v ∈ members nodes r, ∀ t ∈ v.lastAt, t < c.outcomes.now (.pair r p.1 p.2)

/-- A run in which every pick is stamped. -/
def StampedRun (r : String) : List Node → List Cycle → Prop
  | _, [] => True
  | nodes, c :: cs => Stamped r nodes c ∧ StampedRun r (afterCycle nodes c) cs

instance (r : String) (nodes : List Node) (c : Cycle) : Decidable (Stamped r nodes c) :=
  inferInstanceAs (Decidable (∀ p ∈ rackPick r nodes c, _ ∧ _ ∧
    ∀ v ∈ members nodes r, ∀ t ∈ v.lastAt, t < c.outcomes.now (.pair r p.1 p.2)))

instance decidableStampedRun (r : String) : ∀ nodes cs, Decidable (StampedRun r nodes cs)
  | _, [] => isTrue trivial
  | nodes, c :: cs =>
      have := decidableStampedRun r (afterCycle nodes c) cs
      inferInstanceAs (Decidable (Stamped r nodes c ∧ StampedRun r (afterCycle nodes c) cs))

/-- The cycle, as a turn of the schedule of the rack. -/
def rackTurn (r : String) (nodes : List Node) (c : Cycle) : Lru.Turn String where
  cutoff := c.cutoff
  stamp :=
    match rackPick r nodes c with
    | some (a, b) => c.outcomes.now (.pair r a b)
    | none => c.cutoff

/-- The run, as turns of the schedule. -/
def rackTurns (r : String) : List Node → List Cycle → List (Lru.Turn String)
  | _, [] => []
  | nodes, c :: cs => rackTurn r nodes c :: rackTurns r (afterCycle nodes c) cs

lemma rackPick_names (r : String) (nodes : List Node) (c : Cycle) :
    (rackPick r nodes c).map (fun p => (p.1.name, p.2.name))
      = Lru.pick (rackTurn r nodes c).cutoff (slots nodes r) :=
  pickPair_names (members nodes r) c.cutoff

/-- **The step of the rack**: a cycle whose pick is written on both members is a turn of
the schedule. -/
lemma slots_afterCycle {r : String} {nodes : List Node} {c : Cycle} (hnd : DistinctNames nodes)
    (hland : ∀ p ∈ rackPick r nodes c, c.outcomes.landed p.1.name ∧ c.outcomes.landed p.2.name) :
    slots (afterCycle nodes c) r = Lru.turn (slots nodes r) (rackTurn r nodes c) := by
  refine slots_passResult hnd fun a b hp => ?_
  have hp' : rackPick r nodes c = some (a, b) := hp
  obtain ⟨ha, hb⟩ := hland (a, b) hp'
  exact ⟨by simp only [hp'], ha, hb⟩

/-- Timestamps below a bound, said of the slots. -/
lemma forall_slots_lt_iff {r : String} {nodes : List Node} {w : String} :
    (∀ s ∈ slots nodes r, s.last < (w : WithBot String)) ↔
      ∀ v ∈ members nodes r, ∀ t ∈ v.lastAt, t < w := by
  rw [slots, List.forall_mem_map]
  refine forall₂_congr fun v _ => ?_
  change stampOf v.lastAt < _ ↔ _
  cases v.lastAt with
  | none => simp [stampOf]
  | some t => simp [stampOf, -String.lt_iff_ltb]

lemma lt_stamp_of_stamped {r : String} {nodes : List Node} {c : Cycle} (h : Stamped r nodes c)
    (hp : (Lru.pick (rackTurn r nodes c).cutoff (slots nodes r)).isSome) :
    ∀ s ∈ slots nodes r, s.last < (rackTurn r nodes c).stamp := by
  rw [← rackPick_names, Option.isSome_map] at hp
  obtain ⟨⟨a, b⟩, hp⟩ := Option.isSome_iff_exists.mp hp
  simp only [rackTurn, hp]
  exact forall_slots_lt_iff.mpr (h (a, b) hp).2.2

lemma Stamped.landed {r : String} {nodes : List Node} {c : Cycle} (h : Stamped r nodes c) :
    ∀ p ∈ rackPick r nodes c, c.outcomes.landed p.1.name ∧ c.outcomes.landed p.2.name :=
  fun p hp => ⟨(h p hp).1, (h p hp).2.1⟩

/-- **The run of the rack**: its picks are those of the schedule, with fresh stamps. -/
theorem rackPicks_eq {r : String} {nodes : List Node} {cs : List Cycle} (hnd : DistinctNames nodes)
    (hrun : StampedRun r nodes cs) :
    rackPicks r nodes cs = Lru.picks (slots nodes r) (rackTurns r nodes cs) ∧
      Lru.Fresh (slots nodes r) (rackTurns r nodes cs) := by
  induction cs generalizing nodes with
  | nil => exact ⟨rfl, trivial⟩
  | cons c cs ih =>
      obtain ⟨hpicks, hfresh⟩ := ih (hnd.afterCycle _) hrun.2
      rw [slots_afterCycle hnd hrun.1.landed] at hpicks hfresh
      refine ⟨?_, lt_stamp_of_stamped hrun.1, hfresh⟩
      rw [rackPicks, rackPick_names, hpicks]
      rfl

/-! ### Nobody starves -/

/-- **No starvation**: any `⌈N/2⌉` consecutive picks of a rack contain every member. -/
theorem no_starvation {r : String} {nodes : List Node} {cs : List Cycle} {x : NodeView} {i : ℕ}
    (hnd : DistinctNames nodes) (hrun : StampedRun r nodes cs) (hx : x ∈ members nodes r)
    (hi : i + ((members nodes r).length + 1) / 2 ≤ (rackPicks r nodes cs).length) :
    ∃ p ∈ ((rackPicks r nodes cs).drop i).take (((members nodes r).length + 1) / 2),
      x.name = p.1 ∨ x.name = p.2 := by
  obtain ⟨hpicks, hfresh⟩ := rackPicks_eq hnd hrun
  rw [hpicks] at hi ⊢
  rw [← length_slots] at hi ⊢
  refine Lru.mem_window (hnd.slots r) hfresh hi ?_
  rw [slots, map_name_slot]
  exact List.mem_map_of_mem hx

/-- Three nodes that were never probed, and a cycle in between that picks nothing. -/
theorem no_starvation_three :
    ∃ p ∈ ((rackPicks "r1" [rdmaNode "a" "r1", rdmaNode "b" "r1", rdmaNode "c" "r1"]
        [⟨"1", allTimeOut "1"⟩, ⟨"2", allTimeOut "2"⟩, ⟨"0", allTimeOut "0"⟩,
          ⟨"3", allTimeOut "3"⟩]).drop 1).take 2, "c" = p.1 ∨ "c" = p.2 :=
  @no_starvation "r1" [rdmaNode "a" "r1", rdmaNode "b" "r1", rdmaNode "c" "r1"]
    [⟨"1", allTimeOut "1"⟩, ⟨"2", allTimeOut "2"⟩, ⟨"0", allTimeOut "0"⟩, ⟨"3", allTimeOut "3"⟩]
    ⟨"c", none, none, "r1"⟩ 1 (by decide) (by decide) (by decide) (by decide)

/-! ### Which racks get all their pairs -/

/-- The cluster at the `k`-th cycle of an unbounded run. -/
def nodesAt (nodes : List Node) (cycles : ℕ → Cycle) : ℕ → List Node
  | 0 => nodes
  | k + 1 => afterCycle (nodesAt nodes cycles k) (cycles k)

/-- A run in which every member is past the cutoff at each cycle, and every pick is
stamped. -/
structure BusyRun (r : String) (nodes : List Node) (cycles : ℕ → Cycle) : Prop where
  overdue : ∀ k, ∀ v ∈ members (nodesAt nodes cycles k) r, ∀ t ∈ v.lastAt, t < (cycles k).cutoff
  stamped : ∀ k, Stamped r (nodesAt nodes cycles k) (cycles k)

/-- The `k`-th cycle picks this pair of names, in one order or the other. -/
def PicksAt (r : String) (nodes : List Node) (cycles : ℕ → Cycle) (k : ℕ) (x y : String) : Prop :=
  ∃ p ∈ rackPick r (nodesAt nodes cycles k) (cycles k), s(p.1.name, p.2.name) = s(x, y)

lemma distinctNames_nodesAt {nodes : List Node} (hnd : DistinctNames nodes) (cycles : ℕ → Cycle)
    (k : ℕ) : DistinctNames (nodesAt nodes cycles k) := by
  induction k with
  | zero => exact hnd
  | succ k ih => exact ih.afterCycle _

lemma BusyRun.overdue_slots {r : String} {nodes : List Node} {cycles : ℕ → Cycle}
    (hrun : BusyRun r nodes cycles) (k : ℕ) :
    ∀ s ∈ slots (nodesAt nodes cycles k) r, s.last < ((cycles k).cutoff : WithBot String) :=
  forall_slots_lt_iff.mpr (hrun.overdue k)

/-- In a busy run every cycle picks the front of the ranking. -/
lemma BusyRun.pick {r : String} {nodes : List Node} {cycles : ℕ → Cycle}
    (hrun : BusyRun r nodes cycles) (k : ℕ)
    (hlen : 2 ≤ (slots (nodesAt nodes cycles k) r).length) :
    ∃ a b rest, Lru.ranking (slots (nodesAt nodes cycles k) r) = a :: b :: rest ∧
      (rackPick r (nodesAt nodes cycles k) (cycles k)).map (fun p => (p.1.name, p.2.name))
        = some (a, b) := by
  rw [← Lru.length_ranking] at hlen
  match hr : Lru.ranking (slots (nodesAt nodes cycles k) r), hlen with
  | a :: b :: rest, _ =>
      refine ⟨a, b, rest, rfl, ?_⟩
      rw [rackPick_names]
      exact Lru.pick_of_overdue hr (hrun.overdue_slots k)

/-- In a busy run every cycle turns the ranking. -/
lemma BusyRun.ranking {r : String} {nodes : List Node} {cycles : ℕ → Cycle}
    (hrun : BusyRun r nodes cycles) (hnd : DistinctNames nodes)
    (hlen : 2 ≤ (members nodes r).length) (k : ℕ) :
    Lru.ranking (slots (nodesAt nodes cycles k) r)
      = PairRotation.rotate^[k] (Lru.ranking (slots nodes r)) := by
  induction k with
  | zero => rfl
  | succ k ih =>
      have hlen' : 2 ≤ (slots (nodesAt nodes cycles k) r).length := by
        rw [← Lru.length_ranking, ih, PairRotation.length_rotate_iterate, Lru.length_ranking,
          length_slots]
        exact hlen
      obtain ⟨a, b, rest, -, hpick⟩ := hrun.pick k hlen'
      rw [rackPick_names] at hpick
      have hnd' := distinctNames_nodesAt hnd cycles k
      rw [nodesAt, slots_afterCycle hnd' (hrun.stamped k).landed,
        Lru.ranking_turn (hnd'.slots r) (lt_stamp_of_stamped (hrun.stamped k)), hpick,
        Option.isSome_some, if_pos rfl, ih, Function.iterate_succ_apply']

/-- The picks of a busy run are the front pairs of the turning ranking. -/
lemma BusyRun.picksAt_iff {r : String} {nodes : List Node} {cycles : ℕ → Cycle}
    (hrun : BusyRun r nodes cycles) (hnd : DistinctNames nodes)
    (hlen : 2 ≤ (members nodes r).length) (k : ℕ) (x y : String) :
    PicksAt r nodes cycles k x y ↔
      PairRotation.ServesPair (PairRotation.rotate^[k] (Lru.ranking (slots nodes r))) x y := by
  have hranking := hrun.ranking hnd hlen k
  have hlen' : 2 ≤ (slots (nodesAt nodes cycles k) r).length := by
    rw [← Lru.length_ranking, hranking, PairRotation.length_rotate_iterate, Lru.length_ranking,
      length_slots]
    exact hlen
  obtain ⟨a, b, rest, hr, hpick⟩ := hrun.pick k hlen'
  obtain ⟨p, hp, hab⟩ := Option.map_eq_some_iff.mp hpick
  obtain ⟨rfl, rfl⟩ := Prod.mk.inj hab
  rw [← hranking, hr]
  constructor
  · rintro ⟨p', hp', hxy⟩
    obtain rfl : p = p' := Option.some.inj (hp.symm.trans hp')
    exact ⟨_, _, rest, rfl, hxy⟩
  · rintro ⟨a', b', rest', heq, hxy⟩
    obtain ⟨rfl, rfl, -⟩ : p.1.name = a' ∧ p.2.name = b' ∧ rest = rest' := by simpa using heq
    exact ⟨p, hp, hxy⟩

lemma mem_ranking {r : String} {nodes : List Node} {x : String} :
    x ∈ Lru.ranking (slots nodes r) ↔ ∃ v ∈ members nodes r, v.name = x := by
  rw [(Lru.ranking_perm _).mem_iff, slots, map_name_slot, List.mem_map]

lemma nodup_ranking {nodes : List Node} (hnd : DistinctNames nodes) (r : String) :
    (Lru.ranking (slots nodes r)).Nodup := by
  rw [(Lru.ranking_perm _).nodup_iff]
  exact hnd.slots r

lemma length_ranking_slots (nodes : List Node) (r : String) :
    (Lru.ranking (slots nodes r)).length = (members nodes r).length := by
  rw [Lru.length_ranking, length_slots]

/-- If every pair is picked, the ranking is one of those that serve every pair. -/
lemma BusyRun.coverable {r : String} {nodes : List Node} {cycles : ℕ → Cycle}
    (hrun : BusyRun r nodes cycles) (hnd : DistinctNames nodes)
    (hlen : 2 ≤ (members nodes r).length)
    (hall : ∀ x ∈ members nodes r, ∀ y ∈ members nodes r, x.name ≠ y.name →
      ∃ k, PicksAt r nodes cycles k x.name y.name) :
    PairRotation.Coverable (Lru.ranking (slots nodes r)) := by
  rw [← length_ranking_slots] at hlen
  refine (PairRotation.pairsCovered_iff (nodup_ranking hnd r) hlen).mp fun x hx y hy hne => ?_
  obtain ⟨v, hv, rfl⟩ := mem_ranking.mp hx
  obtain ⟨w, hw, rfl⟩ := mem_ranking.mp hy
  obtain ⟨k, hk⟩ := hall v hv w hw hne
  rw [length_ranking_slots] at hlen
  exact ⟨k, (hrun.picksAt_iff hnd hlen k _ _).mp hk⟩

/-- In those rankings every pair is picked, in fewer than `N²` cycles. -/
lemma BusyRun.picksAt_of_coverable {r : String} {nodes : List Node} {cycles : ℕ → Cycle}
    (hrun : BusyRun r nodes cycles) (hnd : DistinctNames nodes)
    (hlen : 2 ≤ (members nodes r).length)
    (hcov : PairRotation.Coverable (Lru.ranking (slots nodes r))) {x y : NodeView}
    (hx : x ∈ members nodes r) (hy : y ∈ members nodes r) (hne : x.name ≠ y.name) :
    ∃ k < (members nodes r).length ^ 2, PicksAt r nodes cycles k x.name y.name := by
  obtain ⟨k, hk, hserve⟩ := hcov.servesPair (mem_ranking.mpr ⟨x, hx, rfl⟩)
    (mem_ranking.mpr ⟨y, hy, rfl⟩) hne
  rw [length_ranking_slots] at hk
  exact ⟨k, hk, (hrun.picksAt_iff hnd hlen k _ _).mpr hserve⟩

/-- **Which racks get all their pairs**: with two members the only pair, with three
members all of them exactly when the member with the smallest name stands last in
the schedule at the start, with four or more never. Where all pairs are picked, this
takes fewer than `N²` cycles. -/
theorem pairs_covered_iff {r : String} {nodes : List Node} {cycles : ℕ → Cycle}
    (hnd : DistinctNames nodes) (hlen : 2 ≤ (members nodes r).length)
    (hrun : BusyRun r nodes cycles) :
    ((∀ x ∈ members nodes r, ∀ y ∈ members nodes r, x.name ≠ y.name →
        ∃ k, PicksAt r nodes cycles k x.name y.name) ↔
      PairRotation.Coverable (Lru.ranking (slots nodes r))) ∧
    ((∀ x ∈ members nodes r, ∀ y ∈ members nodes r, x.name ≠ y.name →
        ∃ k < (members nodes r).length ^ 2, PicksAt r nodes cycles k x.name y.name) ↔
      PairRotation.Coverable (Lru.ranking (slots nodes r))) := by
  refine ⟨⟨hrun.coverable hnd hlen, fun h x hx y hy hne => ?_⟩,
    ⟨fun h => hrun.coverable hnd hlen fun x hx y hy hne => ?_,
      fun h x hx y hy hne => hrun.picksAt_of_coverable hnd hlen h hx hy hne⟩⟩
  · obtain ⟨k, -, hk⟩ := hrun.picksAt_of_coverable hnd hlen h hx hy hne
    exact ⟨k, hk⟩
  · obtain ⟨k, -, hk⟩ := h x hx y hy hne
    exact ⟨k, hk⟩

/-- Cycles with the given stamps, each of them also the cutoff of its cycle. -/
def stampCycles (stamp : ℕ → String) (k : ℕ) : Cycle := ⟨stamp k, allTimeOut (stamp k)⟩

/-- Growing stamps make a busy run. -/
lemma busyRun_stampCycles {r : String} {nodes : List Node} {stamp : ℕ → String}
    (hnd : DistinctNames nodes) (hmono : ∀ k, stamp k < stamp (k + 1))
    (h0 : ∀ v ∈ members nodes r, ∀ t ∈ v.lastAt, t < stamp 0) :
    BusyRun r nodes (stampCycles stamp) := by
  have hbelow (k : ℕ) : ∀ s ∈ slots (nodesAt nodes (stampCycles stamp) k) r,
      s.last < (stamp k : WithBot String) := by
    induction k with
    | zero => exact forall_slots_lt_iff.mpr h0
    | succ k ih =>
        have hlt : (stamp k : WithBot String) < stamp (k + 1) := WithBot.coe_lt_coe.mpr (hmono k)
        rw [nodesAt, slots_afterCycle (distinctNames_nodesAt hnd _ k) fun _ _ => ⟨rfl, rfl⟩]
        refine Lru.forall_mem_turn_lt (fun s hs => (ih s hs).trans hlt) ?_
        refine lt_of_eq_of_lt (congrArg _ ?_) hlt
        simp only [rackTurn]
        split <;> rfl
  exact ⟨fun k => forall_slots_lt_iff.mp (hbelow k),
    fun k p _ => ⟨rfl, rfl, forall_slots_lt_iff.mp (hbelow k)⟩⟩

/-- Stamps that grow without end. -/
def zStamp (k : ℕ) : String := String.ofList (List.replicate (k + 1) 'z')

lemma zStamp_lt (k : ℕ) : zStamp k < zStamp (k + 1) := by
  rw [String.lt_iff_toList_lt, zStamp, zStamp, String.toList_ofList, String.toList_ofList]
  induction k with
  | zero => decide
  | succ k ih => exact List.cons_lt_cons_iff.mpr (Or.inr ⟨rfl, ih⟩)

/-- Two nodes: the only pair is picked. -/
theorem pairs_covered_two :
    ∃ k, PicksAt "r1" [rdmaNode "a" "r1", rdmaNode "b" "r1"] (stampCycles zStamp) k "a" "b" :=
  (pairs_covered_iff (by decide) (by decide)
    (busyRun_stampCycles (by decide) zStamp_lt (by decide))).1.mpr (Or.inl (by decide))
      ⟨"a", none, none, "r1"⟩ (by decide) ⟨"b", none, none, "r1"⟩ (by decide) (by decide)

/-- Three nodes that were never probed: the pair of the second and the third is never
picked, since the first one comes between them again and again. -/
theorem pairs_not_covered_three :
    BusyRun "r1" [rdmaNode "a" "r1", rdmaNode "b" "r1", rdmaNode "c" "r1"] (stampCycles zStamp) ∧
      ∀ k, ¬ PicksAt "r1" [rdmaNode "a" "r1", rdmaNode "b" "r1", rdmaNode "c" "r1"]
        (stampCycles zStamp) k "b" "c" := by
  have hrun : BusyRun "r1" [rdmaNode "a" "r1", rdmaNode "b" "r1", rdmaNode "c" "r1"]
      (stampCycles zStamp) := busyRun_stampCycles (by decide) zStamp_lt (by decide)
  refine ⟨hrun, fun k => ?_⟩
  have hstart : Lru.ranking (slots [rdmaNode "a" "r1", rdmaNode "b" "r1", rdmaNode "c" "r1"] "r1")
      = ["a", "b", "c"] := by decide
  rw [hrun.picksAt_iff (by decide) (by decide), hstart]
  -- from the second cycle on the ranking alternates between two arrangements
  have horbit : PairRotation.rotate^[k] ["a", "b", "c"] ∈
      [["a", "b", "c"], ["c", "a", "b"], ["b", "a", "c"]] := by
    induction k with
    | zero => decide
    | succ k ih =>
        rw [Function.iterate_succ_apply']
        revert ih
        generalize PairRotation.rotate^[k] ["a", "b", "c"] = q
        revert q
        decide
  rintro ⟨a, b, rest, hq, hab⟩
  rw [hq] at horbit
  simp only [List.mem_cons, List.cons.injEq, List.not_mem_nil, or_false] at horbit
  rcases horbit with ⟨rfl, rfl, -⟩ | ⟨rfl, rfl, -⟩ | ⟨rfl, rfl, -⟩ <;> revert hab <;> decide

/-! ### The load of a window -/

/-- One reconcile cycle by the clock: the reading from which its cutoff is computed, the
reading at the patches of each of its tasks, the verdicts, and which nodes' patches
are carried out. -/
structure Round where
  clock : ℕ
  stamp : Task → ℕ
  verdict : Task → Verdict
  landed : String → Bool

/-- `cutoff` of `run_once`. -/
def Round.cutoff (cadence : ℕ) (c : Round) : String := Time.nowMinusSecs c.clock cadence

def Round.outcomes (c : Round) : Outcomes where
  verdict := c.verdict
  now := fun t => Time.nowRfc3339 (c.stamp t)
  landed := c.landed

def Round.cycle (cadence : ℕ) (c : Round) : Cycle := ⟨c.cutoff cadence, c.outcomes⟩

/-- A run by the clock, up to the year 9999: no cycle starts before the one before it,
and the pair it picks in the rack is stamped on both members, not before the start
of the cycle. -/
def TimedRun (r : String) (cadence : ℕ) : List Node → List Round → Prop
  | _, [] => True
  | nodes, c :: cs =>
      (c.clock : ℤ) < Time.yearTenThousand ∧ (∀ c' ∈ cs, c.clock ≤ c'.clock) ∧
        (∀ p ∈ rackPick r nodes (c.cycle cadence),
          c.landed p.1.name ∧ c.landed p.2.name ∧ c.clock ≤ c.stamp (.pair r p.1 p.2) ∧
            (c.stamp (.pair r p.1 p.2) : ℤ) < Time.yearTenThousand) ∧
        TimedRun r cadence (afterCycle nodes (c.cycle cadence)) cs

/-- The number of cycles that start in the window of one cadence from `T` on and pick a
pair in the rack. -/
def load (r : String) (cadence : ℕ) (T : ℤ) : List Node → List Round → ℕ
  | _, [] => 0
  | nodes, c :: cs =>
      (if T ≤ c.clock ∧ c.clock ≤ T + cadence ∧ (rackPick r nodes (c.cycle cadence)).isSome
        then 1 else 0) + load r cadence T (afterCycle nodes (c.cycle cadence)) cs

instance decidableTimedRun (r : String) (cadence : ℕ) :
    ∀ nodes rounds, Decidable (TimedRun r cadence nodes rounds)
  | _, [] => isTrue trivial
  | nodes, c :: cs =>
      have := decidableTimedRun r cadence (afterCycle nodes (c.cycle cadence)) cs
      inferInstanceAs (Decidable ((c.clock : ℤ) < Time.yearTenThousand ∧
        (∀ c' ∈ cs, c.clock ≤ c'.clock) ∧
        (∀ p ∈ rackPick r nodes (c.cycle cadence),
          c.landed p.1.name ∧ c.landed p.2.name ∧ c.clock ≤ c.stamp (.pair r p.1 p.2) ∧
            (c.stamp (.pair r p.1 p.2) : ℤ) < Time.yearTenThousand) ∧
        TimedRun r cadence (afterCycle nodes (c.cycle cadence)) cs))

/-- In the window no cutoff is newer than the beginning of the window. -/
lemma cutoff_le_of_window {cadence : ℕ} {T : ℤ} {c : Round} (hcadence : cadence < 2 ^ 63)
    (hclock : (c.clock : ℤ) < Time.yearTenThousand) (hT : T ≤ c.clock)
    (hin : c.clock ≤ T + cadence) : c.cutoff cadence ≤ Time.rfc3339At (max T 0) := by
  rw [Round.cutoff, Time.nowMinusSecs_eq hclock hcadence]
  refine Time.rfc3339At_le ?_ ?_ ?_
  · omega
  · rw [Time.yearZero]
    omega
  · omega

/-- From the window on no stamp is older than its beginning. -/
lemma le_stamp_of_late {T : ℤ} {c : Round} {t : Task} (hT : T ≤ c.clock)
    (hstamp : c.clock ≤ c.stamp t) (hyear : (c.stamp t : ℤ) < Time.yearTenThousand) :
    Time.rfc3339At (max T 0) ≤ c.outcomes.now t := by
  change _ ≤ Time.nowRfc3339 (c.stamp t)
  rw [Time.nowRfc3339_eq hyear]
  refine Time.rfc3339At_le (by omega) ?_ hyear
  rw [Time.yearZero]
  omega

/-- A pick that uses up two of the stale names leaves room for the rest of the window. -/
lemma one_add_le_half {x s s' : ℕ} (hx : x ≤ (s' + 1) / 2) (hpos : 0 < s) (hle : s' ≤ s - 2) :
    1 + x ≤ (s + 1) / 2 := by omega

/-- Once the window has begun, every pick of the window consumes two stamps from before
it, and no stamp from before it comes back. -/
lemma load_le_of_late {r : String} {cadence : ℕ} {T : ℤ} {nodes : List Node} {rounds : List Round}
    (hnd : DistinctNames nodes) (hcadence : cadence < 2 ^ 63)
    (hrun : TimedRun r cadence nodes rounds) (hlate : ∀ c ∈ rounds, T ≤ c.clock) :
    load r cadence T nodes rounds
      ≤ (Lru.stale (Time.rfc3339At (max T 0)) (slots nodes r) + 1) / 2 := by
  induction rounds generalizing nodes with
  | nil => exact Nat.zero_le _
  | cons c cs ih =>
      obtain ⟨hclock, -, hpick, hrest⟩ := hrun
      rw [List.forall_mem_cons] at hlate
      have hrec := ih (hnd.afterCycle _) hrest hlate.2
      rw [slots_afterCycle hnd fun p hp => ⟨(hpick p hp).1, (hpick p hp).2.1⟩] at hrec
      rw [load]
      cases hp : rackPick r nodes (c.cycle cadence) with
      | none =>
          have hnone :
              Lru.pick (rackTurn r nodes (c.cycle cadence)).cutoff (slots nodes r) = none := by
            rw [← rackPick_names, hp]
            rfl
          rw [Lru.turn, hnone] at hrec
          simpa using hrec
      | some p =>
          obtain ⟨-, -, hstamp, hyear⟩ := hpick p hp
          have hw : Time.rfc3339At (max T 0) ≤ (rackTurn r nodes (c.cycle cadence)).stamp := by
            simp only [rackTurn, hp]
            exact le_stamp_of_late hlate.1 hstamp hyear
          have hsome :
              (Lru.pick (rackTurn r nodes (c.cycle cadence)).cutoff (slots nodes r)).isSome := by
            rw [← rackPick_names, hp]
            rfl
          by_cases hin : (c.clock : ℤ) ≤ T + cadence
          · have hcut : (rackTurn r nodes (c.cycle cadence)).cutoff ≤ Time.rfc3339At (max T 0) :=
              cutoff_le_of_window hcadence hclock hlate.1 hin
            obtain ⟨hpos, hle⟩ := Lru.stale_turn (hnd.slots r) hcut hw hsome
            rw [if_pos ⟨hlate.1, hin, Option.isSome_some⟩]
            exact one_add_le_half hrec hpos hle
          · have hle := Lru.stale_turn_le (slots nodes r) hw
            rw [if_neg fun h => hin h.2.1, Nat.zero_add]
            exact hrec.trans (Nat.div_le_div_right (Nat.add_le_add_right hle 1))

/-- **The probe load**: at most `⌈N/2⌉` of the cycles that start within one cadence pick a
pair in the rack, whatever timestamps its members start with. -/
theorem load_le {r : String} {cadence : ℕ} {T : ℤ} {nodes : List Node} {rounds : List Round}
    (hnd : DistinctNames nodes) (hcadence : cadence < 2 ^ 63)
    (hrun : TimedRun r cadence nodes rounds) :
    load r cadence T nodes rounds ≤ ((members nodes r).length + 1) / 2 := by
  induction rounds generalizing nodes with
  | nil => exact Nat.zero_le _
  | cons c cs ih =>
      by_cases hT : T ≤ c.clock
      · have hlate : ∀ c' ∈ c :: cs, T ≤ c'.clock := by
          rw [List.forall_mem_cons]
          refine ⟨hT, fun c' hc' => ?_⟩
          have := hrun.2.1 c' hc'
          omega
        have hstale := Lru.stale_le_length (Time.rfc3339At (max T 0)) (slots nodes r)
        rw [length_slots] at hstale
        exact (load_le_of_late hnd hcadence hrun hlate).trans
          (Nat.div_le_div_right (Nat.add_le_add_right hstale 1))
      · have hrec := ih (hnd.afterCycle _) hrun.2.2.2
        have hslots : slots (afterCycle nodes (c.cycle cadence)) r = _ := slots_afterCycle hnd
          fun p hp => ⟨(hrun.2.2.1 p hp).1, (hrun.2.2.1 p hp).2.1⟩
        rw [load, if_neg fun h => hT h.1, Nat.zero_add, ← length_slots,
          ← Lru.length_turn _ (rackTurn r nodes (c.cycle cadence)), ← hslots, length_slots]
        exact hrec

/-- A cycle at the given clock reading whose probes all time out at once. -/
def timeOutRound (clock : ℕ) : Round where
  clock := clock
  stamp := fun _ => clock
  verdict := fun _ => .timeout
  landed := fun _ => true

/-- Three nodes, a cadence of an hour and a cycle every five minutes: two picks. -/
theorem load_le_three :
    load "r1" 3600 0 [rdmaNode "a" "r1", rdmaNode "b" "r1", rdmaNode "c" "r1"]
      [timeOutRound 0, timeOutRound 300, timeOutRound 600, timeOutRound 900] ≤ (3 + 1) / 2 :=
  load_le (by decide) (by decide) (by decide)

/-- Out of range the bound breaks: at the turn of the year `10000` a pair that was just
stamped looks older than any cutoff, under a cadence of six hours; and a cadence from
`2 ^ 63` on turns negative, so that the cutoff lies in the future. Either way there
are two picks within five minutes. -/
theorem load_out_of_range :
    (∀ v ∈ members [rdmaNode "a" "r1", rdmaNode "b" "r1"] "r1", v.lastAt = none) ∧
      (members [rdmaNode "a" "r1", rdmaNode "b" "r1"] "r1").length = 2 ∧
      load "r1" 21600 253402300800 [rdmaNode "a" "r1", rdmaNode "b" "r1"]
        [timeOutRound 253402300800, timeOutRound 253402301100] = 2 ∧
      load "r1" (2 ^ 64 - 1) 0 [rdmaNode "a" "r1", rdmaNode "b" "r1"]
        [timeOutRound 0, timeOutRound 300] = 2 := by
  decide +kernel

end Accelrd.Prober
