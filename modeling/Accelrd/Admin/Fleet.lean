import Mathlib.Tactic
import Accelrd.Admin.Mutel

/-!
`src/admin/routes.rs`, `fleet`: the gauges of all nodes and their totals.

* `fleet`: the code, given the answers of the metric store.
* `getElem?_byNode`, `total_fleet`: what the loop over the nodes makes of the ten rollups.
* `CountsOnce`: a gauge of the cards is shown with every card counted once.
* `fleet_countsOnce`: when that is so.
-/

namespace Accelrd.Admin

open Std

/-! ### The code -/

/-- `FLEET_WINDOW_SECS`. -/
def fleetWindowSecs : ℕ := 300

/-- `NodeFleetMetrics`. -/
structure NodeFleetMetrics where
  memUsedBytes : Option ℚ
  memTotalBytes : Option ℚ
  ramTotalBytes : Option ℚ
  ramAvailableBytes : Option ℚ
  diskFreeBytes : Option ℚ
  diskTotalBytes : Option ℚ
  powerWatts : Option ℚ
  tempC : Option ℚ
  utilization : Option ℚ

/-- `FleetTotals`. -/
structure FleetTotals where
  memUsedBytes : ℚ
  memTotalBytes : ℚ
  ramTotalBytes : ℚ
  ramAvailableBytes : ℚ
  diskFreeBytes : ℚ
  powerWatts : ℚ
  maxTempC : Option ℚ
  avgUtilization : Option ℚ
  nodesWithData : ℕ

/-- `FleetResponse`. -/
structure FleetResponse where
  available : Bool
  error : Option String
  windowSecs : ℕ
  byNode : ExtTreeMap String NodeFleetMetrics
  fleet : FleetTotals

/-- The ten rollups. -/
structure Rollups where
  memUsed : ExtTreeMap String ℚ
  memTotal : ExtTreeMap String ℚ
  ramTotal : ExtTreeMap String ℚ
  ramAvail : ExtTreeMap String ℚ
  diskFree : ExtTreeMap String ℚ
  diskTotal : ExtTreeMap String ℚ
  gpuPower : ExtTreeMap String ℚ
  hostPower : ExtTreeMap String ℚ
  temp : ExtTreeMap String ℚ
  util : ExtTreeMap String ℚ

/-- A rollup of a metric; one that failed is empty. -/
def pick (query : String → Except String Value) (name : String) (op : NodeRollup) :
    ExtTreeMap String ℚ :=
  match query name with
  | .ok v => latestByNode op v
  | .error _ => ∅

/-- The queries of `fleet`. -/
def rollups (query : String → Except String Value) : Rollups where
  memUsed := pick query "accel.memory.used" .sum
  memTotal := pick query "accel.memory.total" .sum
  ramTotal := pick query "host.memory.total_bytes" .max
  ramAvail := pick query "host.memory.available_bytes" .max
  diskFree := pick query "host.disk.free_bytes" .max
  diskTotal := pick query "host.disk.total_bytes" .max
  gpuPower := pick query "accel.power.usage" .sum
  hostPower := pick query "host.power.usage" .sum
  temp := pick query "accel.temperature" .max
  util := pick query "accel.utilization" .avg

/-- The first error, in the order in which the results are picked. -/
def firstError (query : String → Except String Value) : Option String :=
  ["accel.memory.used", "accel.memory.total", "host.memory.total_bytes",
    "host.memory.available_bytes", "host.disk.free_bytes", "host.disk.total_bytes",
    "accel.power.usage", "host.power.usage", "accel.temperature",
    "accel.utilization"].findSome? fun name =>
      match query name with
      | .ok _ => none
      | .error e => some e

/-- The nodes that any of the rollups knows, in order. -/
def Rollups.nodes (r : Rollups) : List String :=
  (ExtTreeSet.ofList (r.memUsed.keys ++ r.memTotal.keys ++
    (r.ramTotal.keys ++ r.ramAvail.keys ++ r.diskFree.keys ++ r.diskTotal.keys) ++
    (r.gpuPower.keys ++ r.hostPower.keys ++ r.temp.keys ++ r.util.keys))).toList

/-- The metrics of a node. -/
def Rollups.metrics (r : Rollups) (node : String) : NodeFleetMetrics where
  memUsedBytes := r.memUsed[node]?
  memTotalBytes := r.memTotal[node]?
  ramTotalBytes := r.ramTotal[node]?
  ramAvailableBytes := r.ramAvail[node]?
  diskFreeBytes := r.diskFree[node]?
  diskTotalBytes := r.diskTotal[node]?
  powerWatts :=
    match r.gpuPower[node]?, r.hostPower[node]? with
    | none, none => none
    | g, h => some (g.getD 0 + h.getD 0)
  tempC := r.temp[node]?
  utilization := r.util[node]?

/-- What the loop over the nodes carries along. -/
structure FleetState where
  byNode : ExtTreeMap String NodeFleetMetrics
  totals : FleetTotals
  utilAcc : ℚ
  utilN : ℕ

/-- One round of the loop. -/
def Rollups.visit (r : Rollups) (s : FleetState) (node : String) : FleetState :=
  let m := r.metrics node
  { byNode := s.byNode.insert node m
    totals := {
      memUsedBytes := s.totals.memUsedBytes + m.memUsedBytes.getD 0
      memTotalBytes := s.totals.memTotalBytes + m.memTotalBytes.getD 0
      ramTotalBytes := s.totals.ramTotalBytes + m.ramTotalBytes.getD 0
      ramAvailableBytes := s.totals.ramAvailableBytes + m.ramAvailableBytes.getD 0
      diskFreeBytes := s.totals.diskFreeBytes + m.diskFreeBytes.getD 0
      powerWatts := s.totals.powerWatts + m.powerWatts.getD 0
      maxTempC :=
        match m.tempC with
        | none => s.totals.maxTempC
        | some v =>
            some (match s.totals.maxTempC with
              | none => v
              | some cur => max cur v)
      avgUtilization := s.totals.avgUtilization
      nodesWithData := s.totals.nodesWithData + 1 }
    utilAcc := s.utilAcc + m.utilization.getD 0
    utilN := if m.utilization.isSome then s.utilN + 1 else s.utilN }

/-- The state before the loop. -/
def FleetState.start : FleetState := ⟨∅, ⟨0, 0, 0, 0, 0, 0, none, none, 0⟩, 0, 0⟩

/-- `fleet`. -/
def fleet (query : String → Except String Value) : FleetResponse :=
  let r := rollups query
  let s := r.nodes.foldl r.visit FleetState.start
  { available := (firstError query).isNone
    error := firstError query
    windowSecs := fleetWindowSecs
    byNode := s.byNode
    fleet :=
      if s.utilN > 0 then { s.totals with avgUtilization := some (s.utilAcc / s.utilN) }
      else s.totals }

/-! ### The loop over the nodes -/

lemma Rollups.nodup_nodes (r : Rollups) : r.nodes.Nodup :=
  ExtTreeSet.distinct_toList.imp fun hne heq => hne (Std.compare_eq_iff_eq.mpr heq)

lemma Rollups.mem_nodes {r : Rollups} {node : String} :
    node ∈ r.nodes ↔ ∃ m ∈ [r.memUsed, r.memTotal, r.ramTotal, r.ramAvail, r.diskFree, r.diskTotal,
      r.gpuPower, r.hostPower, r.temp, r.util], node ∈ m := by
  rw [Rollups.nodes, ExtTreeSet.mem_toList, ExtTreeSet.mem_ofList]
  simp

lemma Rollups.byNode_foldl_visit (r : Rollups) (nodes : List String) (s : FleetState)
    (node : String) :
    (nodes.foldl r.visit s).byNode[node]? =
      if node ∈ nodes then some (r.metrics node) else s.byNode[node]? := by
  induction nodes generalizing s with
  | nil => rfl
  | cons n nodes ih =>
      rw [List.foldl_cons, ih]
      by_cases hmem : node ∈ nodes
      · rw [if_pos hmem, if_pos (List.mem_cons_of_mem n hmem)]
      · rw [if_neg hmem, Rollups.visit, ExtTreeMap.getElem?_insert]
        by_cases hn : n = node
        · simp [hn]
        · simp [hn, hmem, Ne.symm hn]

/-- A total that each round adds to. -/
lemma Rollups.sum_foldl_visit (r : Rollups) {T : FleetState → ℚ} {p : String → ℚ}
    (hvisit : ∀ s node, T (r.visit s node) = T s + p node) (nodes : List String)
    (s : FleetState) : T (nodes.foldl r.visit s) = T s + (nodes.map p).sum := by
  induction nodes generalizing s with
  | nil => simp
  | cons n nodes ih => rw [List.foldl_cons, ih, hvisit, List.map_cons, List.sum_cons, add_assoc]

/-- The nodes of the response are those that some rollup knows. -/
theorem getElem?_byNode (query : String → Except String Value) (node : String) :
    (fleet query).byNode[node]? =
      if node ∈ (rollups query).nodes then some ((rollups query).metrics node) else none := by
  have hstart : FleetState.start.byNode[node]? = none := ExtTreeMap.getElem?_empty
  rw [← hstart, ← Rollups.byNode_foldl_visit]
  rfl

/-- What the response has of a metric that is taken from one of the rollups. -/
lemma shown_byNode {query : String → Except String Value} {metric : NodeFleetMetrics → Option ℚ}
    {m : ExtTreeMap String ℚ}
    (hmetric : ∀ node, metric ((rollups query).metrics node) = m[node]?)
    (hm : ∀ node, node ∈ m → node ∈ (rollups query).nodes) (node : String) :
    (fleet query).byNode[node]?.bind metric = m[node]? := by
  rw [getElem?_byNode]
  split_ifs with hnode
  · exact hmetric node
  · exact (ExtTreeMap.getElem?_eq_none fun hmem => hnode (hm node hmem)).symm

/-- A total, other than the mean utilization, sums up what the nodes show of a metric. -/
lemma total_fleet (query : String → Except String Value) {T : FleetTotals → ℚ}
    {metric : NodeFleetMetrics → Option ℚ} (hmean : ∀ t m, T { t with avgUtilization := m } = T t)
    (hstart : T FleetState.start.totals = 0)
    (hvisit : ∀ s node, T ((rollups query).visit s node).totals =
      T s.totals + (metric ((rollups query).metrics node)).getD 0) :
    T (fleet query).fleet =
      ((rollups query).nodes.map fun node =>
        (metric ((rollups query).metrics node)).getD 0).sum := by
  have hloop := (rollups query).sum_foldl_visit (T := fun s => T s.totals) hvisit
    (rollups query).nodes FleetState.start
  rw [fleet, apply_ite T, hmean, ite_self, hloop, hstart, zero_add]

/-! ### Gauges of cards -/

/-- What the series of a card have in common. -/
def Series.card (s : Series) : String × String := (s.node, s.pciAddr)

/-- The sum of a rollup over the nodes of the response is that of all series. -/
lemma sum_rollup (series : List Series) {nodes : List String} (hnd : nodes.Nodup)
    (hmem : ∀ node, node ∈ latestByNode .sum (response series) → node ∈ nodes) :
    (nodes.map fun node => (latestByNode .sum (response series))[node]?.getD 0).sum =
      ((named series).map Series.value).sum := by
  have hget (node : String) : (latestByNode .sum (response series))[node]?.getD 0 =
      (samplesOf (response series) node).sum := by
    rw [getElem?_latestByNode]
    split_ifs with hnil
    · rw [hnil]
      rfl
    · rfl
  have hsamples : ((named series).map Series.value) =
      ((groups (response series)).filterMap sample).map Prod.snd := by
    rw [filterMap_sample_response, List.map_map]
    rfl
  simp only [hget]
  rw [hsamples]
  refine Rollup.sum_map_sum_valuesOf hnd fun e he => hmem e.1 ?_
  rw [← ExtTreeMap.isSome_getElem?_iff_mem, getElem?_latestByNode, if_neg]
  · rfl
  · intro hnil
    rw [samplesOf, Rollup.valuesOf, List.map_eq_nil_iff, List.filter_eq_nil_iff] at hnil
    simpa using hnil e he

/-- **Each card counts once**: in the rollup of each node, in what is shown of it, and in
the total. -/
structure CountsOnce (series : List Series) (rollup : ExtTreeMap String ℚ)
    (shown : String → Option ℚ) (total : ℚ) : Prop where
  rollup_eq : ∀ node, node ≠ "" → rollup[node]? =
    if onNode series node = [] then none
    else some (Rollup.sumOnce Series.card Series.value (onNode series node))
  shown_eq : ∀ node, shown node = rollup[node]?
  total_eq : total = Rollup.sumOnce Series.card Series.value (named series)

section Gauge

variable {series : List Series} {shown : String → Option ℚ} {total : ℚ}
variable (hsteady : Rollup.Steady Series.card Series.value series)
variable (hshown : ∀ node, shown node = (latestByNode .sum (response series))[node]?)
variable (htotal : total = ((named series).map Series.value).sum)
include hsteady

include hshown htotal in
/-- No card with two series: each counts once. -/
lemma countsOnce_of_single (hsingle : Rollup.Single Series.card Series.value (named series)) :
    CountsOnce series (latestByNode .sum (response series)) shown total where
  rollup_eq node hnode := by
    have hsub : (onNode series node).Sublist (named series) := by
      have heq : onNode series node = (named series).filter (·.node = node) := by
        rw [onNode, named, List.filter_filter]
        refine List.filter_congr fun s _ => ?_
        by_cases hs : s.node = node <;> simp [hs, hnode]
      rw [heq]
      exact List.filter_sublist
    have hsum : ((onNode series node).map Series.value).sum =
        Rollup.sumOnce Series.card Series.value (onNode series node) :=
      Rollup.sum_eq_sumOnce (hsteady.sublist List.filter_sublist) (hsingle.sublist hsub)
    rw [getElem?_latestByNode, samplesOf_response series hnode, ← hsum]
    simp only [List.map_eq_nil_iff]
    rfl
  shown_eq := hshown
  total_eq := by
    rw [htotal]
    exact Rollup.sum_eq_sumOnce (hsteady.sublist List.filter_sublist) hsingle

include htotal in
/-- A card with two series counts twice in the total, if it has a positive value. -/
lemma single_of_countsOnce (hnonneg : ∀ s ∈ series, 0 ≤ s.value) {rollup : ExtTreeMap String ℚ}
    (h : CountsOnce series rollup shown total) :
    Rollup.Single Series.card Series.value (named series) := by
  refine (Rollup.sum_eq_sumOnce_iff (hsteady.sublist List.filter_sublist) fun s hs => ?_).mp ?_
  · exact hnonneg s (List.mem_filter.mp hs).1
  · exact htotal.symm.trans h.total_eq

end Gauge

/-- A metric store with these series for the two memory gauges. -/
def answers (used total : List Series) (others : String → Except String Value) (name : String) :
    Except String Value :=
  if name = "accel.memory.used" then .ok (response used)
  else if name = "accel.memory.total" then .ok (response total)
  else others name

/-- The memory gauges as the admin shows them. -/
def MemoryCountsOnce (used total : List Series) (shown : FleetResponse) : Prop :=
  CountsOnce used (latestByNode .sum (response used))
    (fun node => shown.byNode[node]?.bind (·.memUsedBytes)) shown.fleet.memUsedBytes ∧
  CountsOnce total (latestByNode .sum (response total))
    (fun node => shown.byNode[node]?.bind (·.memTotalBytes)) shown.fleet.memTotalBytes

/-- No card with a value other than zero has two series. -/
def OneSeriesEach (series : List Series) : Prop :=
  Rollup.Single Series.card Series.value (named series)

/-- **When the fleet counts each card once**: if no card with a value other than zero has
two series in the window, whatever else the store answers; and for values that are not
negative only then. -/
theorem fleet_countsOnce (used total : List Series)
    (hused : Rollup.Steady Series.card Series.value used)
    (htotal : Rollup.Steady Series.card Series.value total)
    (others : String → Except String Value) :
    (OneSeriesEach used ∧ OneSeriesEach total →
      MemoryCountsOnce used total (fleet (answers used total others))) ∧
    ((∀ s ∈ used ++ total, 0 ≤ s.value) →
      (MemoryCountsOnce used total (fleet (answers used total others)) ↔
        OneSeriesEach used ∧ OneSeriesEach total)) := by
  have hrollups : (rollups (answers used total others)).memUsed =
        latestByNode .sum (response used) ∧
      (rollups (answers used total others)).memTotal = latestByNode .sum (response total) :=
    ⟨rfl, rfl⟩
  have hmemUsed (node : String) (h : node ∈ latestByNode .sum (response used)) :
      node ∈ (rollups (answers used total others)).nodes :=
    Rollups.mem_nodes.mpr ⟨_, List.mem_cons_self, h⟩
  have hmemTotal (node : String) (h : node ∈ latestByNode .sum (response total)) :
      node ∈ (rollups (answers used total others)).nodes :=
    Rollups.mem_nodes.mpr ⟨_, List.mem_cons_of_mem _ List.mem_cons_self, h⟩
  have hsumUsed : (fleet (answers used total others)).fleet.memUsedBytes =
      ((named used).map Series.value).sum :=
    (@total_fleet _ FleetTotals.memUsedBytes NodeFleetMetrics.memUsedBytes (fun _ _ => rfl) rfl
      fun _ _ => rfl).trans (sum_rollup used (Rollups.nodup_nodes _) hmemUsed)
  have hsumTotal : (fleet (answers used total others)).fleet.memTotalBytes =
      ((named total).map Series.value).sum :=
    (@total_fleet _ FleetTotals.memTotalBytes NodeFleetMetrics.memTotalBytes (fun _ _ => rfl) rfl
      fun _ _ => rfl).trans (sum_rollup total (Rollups.nodup_nodes _) hmemTotal)
  have hone : OneSeriesEach used ∧ OneSeriesEach total →
      MemoryCountsOnce used total (fleet (answers used total others)) := fun h =>
    ⟨countsOnce_of_single hused (shown_byNode (fun _ => rfl) hmemUsed) hsumUsed h.1,
      countsOnce_of_single htotal (shown_byNode (fun _ => rfl) hmemTotal) hsumTotal h.2⟩
  refine ⟨hone, fun hnonneg => ⟨fun h => ?_, hone⟩⟩
  obtain ⟨hnonnegUsed, hnonnegTotal⟩ := List.forall_mem_append.mp hnonneg
  exact ⟨single_of_countsOnce hused hsumUsed hnonnegUsed h.1,
    single_of_countsOnce htotal hsumTotal hnonnegTotal h.2⟩

/-- Two cards of 24 GiB on a node and one of 16 GiB on another, whose pods have sent all that is
in the window. -/
def liveSeries : List Series :=
  [⟨"pod-2", "lun-hisame", "0000:01:00.0", 300, 25769803776⟩,
    ⟨"pod-2", "lun-hisame", "0000:02:00.0", 300, 25769803776⟩,
    ⟨"pod-3", "lun-kisame", "0000:01:00.0", 310, 17179869184⟩]

/-- A card of 24 GiB after a restart within the window. -/
def restartedSeries : List Series :=
  [⟨"pod-1", "lun-hisame", "0000:01:00.0", 120, 25769803776⟩,
    ⟨"pod-2", "lun-hisame", "0000:01:00.0", 300, 25769803776⟩]

lemma steady_restartedSeries : Rollup.Steady Series.card Series.value restartedSeries := by
  simp [Rollup.Steady, restartedSeries]

/-- Without a restart the total is right. -/
theorem fleet_countsOnce_live :
    MemoryCountsOnce liveSeries liveSeries
      (fleet (answers liveSeries liveSeries fun _ => .error "GET status")) := by
  have hsteady : Rollup.Steady Series.card Series.value liveSeries := by
    simp [Rollup.Steady, Series.card, liveSeries]
  have hsingle : OneSeriesEach liveSeries := by
    simp [OneSeriesEach, Rollup.Single, Series.card, named, liveSeries]
  exact (fleet_countsOnce liveSeries liveSeries hsteady hsteady _).1 ⟨hsingle, hsingle⟩

/-- After a restart the node has twice the memory that its one card has. -/
theorem fleet_counts_twice :
    Rollup.Steady Series.card Series.value restartedSeries ∧
    (latestByNode .sum (response restartedSeries))["lun-hisame"]? = some 51539607552 ∧
    Rollup.sumOnce Series.card Series.value (onNode restartedSeries "lun-hisame") = 25769803776 ∧
    (fleet (answers restartedSeries restartedSeries fun _ => .error "GET status")).byNode[
      "lun-hisame"]?.bind (·.memTotalBytes) = some 51539607552 := by
  have hrollup : (latestByNode .sum (response restartedSeries))["lun-hisame"]? =
      some 51539607552 := by
    have hvalues : (onNode restartedSeries "lun-hisame").map Series.value =
        [25769803776, 25769803776] := rfl
    rw [getElem?_latestByNode, samplesOf_response _ (by decide), hvalues,
      if_neg (List.cons_ne_nil _ _)]
    norm_num [NodeRollup.roll]
  refine ⟨steady_restartedSeries, hrollup, ?_, ?_⟩
  · simp [Rollup.sumOnce, Rollup.valueAt, onNode, restartedSeries, Series.card]
  · have hmem : "lun-hisame" ∈ (rollups (answers restartedSeries restartedSeries
        fun _ => .error "GET status")).nodes := by
      refine Rollups.mem_nodes.mpr ⟨_, List.mem_cons_self, ?_⟩
      rw [← ExtTreeMap.isSome_getElem?_iff_mem]
      exact hrollup ▸ rfl
    rw [getElem?_byNode, if_pos hmem]
    exact hrollup

end Accelrd.Admin
