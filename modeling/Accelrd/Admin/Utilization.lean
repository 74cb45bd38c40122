import Mathlib.Tactic
import Accelrd.Admin.Fleet
import Accelrd.Library.Mean
import Accelrd.Sensors.Amd

/-!
The utilization on its way from the cards to the screen: `src/sensors/amd.rs`,
`NodeRollup::Avg`, `fleet`, and what `static/admin/js/app.js` and
`static/admin/js/topology.js` make of the numbers. Numbers are exact.

* `nodeRowUtil`, `nodeCardUtil`, `utilAvgStat`: what the pages show.
* `avgUtilization_fleet`: the mean that the loop over the nodes ends with.
* `KeepsUnit`: the pages show percentages of what the cards report.
* `keepsUnit_iff`: they do so on idle nodes only.
-/

namespace Accelrd.Admin

open Std Sensors
open Mean (mean)

/-! ### The pages -/

/-- `Number.prototype.toFixed` with no digits, for numbers below `10 ^ 21` in absolute
value: the nearest whole number, the larger one of two. -/
def toFixed0 (x : ℚ) : String := (if x < 0 then "-" else "") ++ toString ⌊|x| + 1 / 2⌋₊

/-- `fmtPercent`. -/
def fmtPercent : Option ℚ → String
  | none => "—"
  | some p => toFixed0 p ++ "%"

/-- The cell of the utilization in `nodeRow`. -/
def nodeRowUtil (live : Option NodeFleetMetrics) : String := fmtPercent (live.bind (·.utilization))

/-- The text of the utilization in `renderNode` of `topology.js`. -/
def nodeCardUtil (live : Option NodeFleetMetrics) : String :=
  match live.bind (·.utilization) with
  | none => "— %"
  | some u => toFixed0 u ++ "%"

/-- The value under "util avg" in `renderStatusStrip`, which ends before it if a query has
failed. -/
def utilAvgStat (response : FleetResponse) : Option String :=
  if response.available then some (fmtPercent response.fleet.avgUtilization) else none

/-! ### The mean of the nodes -/

/-- What the loop over the nodes gathers of the utilization. -/
lemma Rollups.util_foldl_visit (r : Rollups) (nodes : List String) (s : FleetState) :
    (nodes.foldl r.visit s).utilAcc = s.utilAcc + (nodes.filterMap (r.util[·]?)).sum ∧
      (nodes.foldl r.visit s).utilN = s.utilN + (nodes.filterMap (r.util[·]?)).length := by
  induction nodes generalizing s with
  | nil => simp
  | cons node nodes ih =>
      obtain ⟨hacc, hn⟩ := ih (r.visit s node)
      rw [List.foldl_cons, hacc, hn, List.filterMap_cons]
      cases hu : r.util[node]? with
      | none => simp [Rollups.visit, Rollups.metrics, hu]
      | some u =>
          simp only [Rollups.visit, Rollups.metrics, hu, Option.getD_some, Option.isSome_some,
            if_true, List.sum_cons, List.length_cons]
          exact ⟨add_assoc _ _ _, by omega⟩

/-- **The mean utilization** is that of the nodes that have one. -/
theorem avgUtilization_fleet (query : String → Except String Value) :
    (fleet query).fleet.avgUtilization =
      if (rollups query).nodes.filterMap ((rollups query).util[·]?) = [] then none
      else some (mean ((rollups query).nodes.filterMap ((rollups query).util[·]?))) := by
  obtain ⟨hacc, hn⟩ := (rollups query).util_foldl_visit (rollups query).nodes FleetState.start
  have hkeep (nodes : List String) (s : FleetState) :
      (nodes.foldl (rollups query).visit s).totals.avgUtilization = s.totals.avgUtilization := by
    induction nodes generalizing s with
    | nil => rfl
    | cons node nodes ih => exact ih _
  rw [FleetState.start, zero_add] at hacc hn
  rw [fleet, apply_ite FleetTotals.avgUtilization, hkeep, FleetState.start, hacc, hn]
  by_cases hnil : (rollups query).nodes.filterMap ((rollups query).util[·]?) = []
  · rw [if_pos hnil, if_neg (by rw [hnil]; simp)]
  · rw [if_neg hnil, if_pos (List.length_pos_iff.mpr hnil), mean]

/-! ### What the cards report -/

/-- A metric store with these series of `accel.utilization`. -/
def utilAnswers (series : List Series) (others : String → Except String Value) (name : String) :
    Except String Value :=
  if name = "accel.utilization" then .ok (response series) else others name

/-- The readings of the cards of a node. -/
def busyOn (daemons : List Daemon) (node : String) : List ℕ :=
  (daemons.filter (·.node = node)).flatMap Daemon.busyPercents

/-- The named nodes of which some card reports. -/
def reporting (daemons : List Daemon) : List String :=
  ((daemons.map (·.node)).filter fun node => node ≠ "" ∧ busyOn daemons node ≠ []).dedup

/-- The mean of the readings of a node. -/
def meanBusy (daemons : List Daemon) (node : String) : ℚ :=
  mean ((busyOn daemons node).map fun b : ℕ => (b : ℚ))

/-- A number as a whole percentage. -/
def percent (x : ℚ) : String := toString (round x) ++ "%"

/-- **The unit is kept**: the pages show the mean of the readings of each node, and the
mean of these, as whole percentages. -/
structure KeepsUnit (daemons : List Daemon) (shown : FleetResponse) : Prop where
  row : ∀ node ∈ reporting daemons,
    nodeRowUtil shown.byNode[node]? = percent (meanBusy daemons node)
  card : ∀ node ∈ reporting daemons,
    nodeCardUtil shown.byNode[node]? = percent (meanBusy daemons node)
  strip : reporting daemons ≠ [] → ∀ text, utilAvgStat shown = some text →
    text = percent (mean ((reporting daemons).map (meanBusy daemons)))

/-- On every node with a reading, the readings add up to less than half of their number. -/
def Idle (daemons : List Daemon) : Prop :=
  ∀ node ∈ reporting daemons, 2 * (busyOn daemons node).sum < (busyOn daemons node).length

/-! ### From the cards to the response -/

/-- The samples of a node are the readings of its cards, as fractions. -/
lemma map_value_onNode (time : ℚ) (daemons : List Daemon) (node : String) :
    (onNode (daemons.flatMap (Daemon.utilizationSeries time)) node).map Series.value =
      ((busyOn daemons node).map fun b : ℕ => (b : ℚ)).map (· / 100) := by
  rw [onNode, busyOn, List.map_map]
  induction daemons with
  | nil => rfl
  | cons d daemons ih =>
      rw [List.flatMap_cons, List.filter_append, List.map_append, ih]
      by_cases hd : d.node = node
      · have hall : (d.utilizationSeries time).filter (·.node = node) =
            d.utilizationSeries time := by
          rw [List.filter_eq_self]
          intro s hs
          simpa [Daemon.node_of_mem_utilizationSeries hs] using hd
        rw [hall, List.filter_cons_of_pos (by simpa using hd), List.flatMap_cons, List.map_append,
          Daemon.map_value_utilizationSeries]
        rfl
      · have hnone : (d.utilizationSeries time).filter (·.node = node) = [] := by
          rw [List.filter_eq_nil_iff]
          intro s hs
          simpa [Daemon.node_of_mem_utilizationSeries hs] using hd
        rw [hnone, List.filter_cons_of_neg (by simpa using hd)]
        rfl

/-- A group without a node is left out. -/
lemma getElem?_latestByNode_empty (op : NodeRollup) (series : List Series) :
    (latestByNode op (response series))[""]? = none := by
  have hsamples : samplesOf (response series) "" = [] := by
    rw [samplesOf, Rollup.valuesOf_eq_nil_iff, filterMap_sample_response, List.map_map]
    intro hmem
    obtain ⟨s, hs, hnode⟩ := List.mem_map.mp hmem
    have hne : s.node ≠ "" := by simpa using (List.mem_filter.mp hs).2
    exact hne hnode
  rw [getElem?_latestByNode, if_pos hsamples]

lemma mem_reporting {daemons : List Daemon} {node : String} :
    node ∈ reporting daemons ↔ node ≠ "" ∧ busyOn daemons node ≠ [] := by
  rw [reporting, List.mem_dedup, List.mem_filter]
  simp only [ne_eq, decide_eq_true_eq, and_iff_right_iff_imp]
  rintro ⟨-, hne⟩
  obtain ⟨d, hd⟩ := List.exists_mem_of_ne_nil _ fun hnil : daemons.filter (·.node = node) = [] =>
    hne (by rw [busyOn, hnil, List.flatMap_nil])
  obtain ⟨hmem, hnode⟩ := List.mem_filter.mp hd
  exact List.mem_map.mpr ⟨d, hmem, by simpa using hnode⟩

section Shown

variable (time : ℚ) (daemons : List Daemon) (others : String → Except String Value)

/-- What the metric store answers. -/
def answersOf : String → Except String Value :=
  utilAnswers (daemons.flatMap (Daemon.utilizationSeries time)) others

/-- The rollup of a node is the mean of its readings, a hundred times too small. -/
lemma getElem?_util (node : String) :
    (rollups (answersOf time daemons others)).util[node]? =
      if node ∈ reporting daemons then some (meanBusy daemons node / 100) else none := by
  change (latestByNode .avg (response (daemons.flatMap (Daemon.utilizationSeries time))))[node]? = _
  by_cases hnode : node = ""
  · subst hnode
    rw [getElem?_latestByNode_empty, if_neg fun h => (mem_reporting.mp h).1 rfl]
  · rw [getElem?_latestByNode, samplesOf_response _ hnode, map_value_onNode]
    by_cases hnil : busyOn daemons node = []
    · rw [if_neg fun h => (mem_reporting.mp h).2 hnil, hnil]
      rfl
    · have hvalues : ((busyOn daemons node).map fun b : ℕ => (b : ℚ)).map (· / 100) ≠ [] := by
        simpa only [ne_eq, List.map_eq_nil_iff] using hnil
      rw [if_pos (mem_reporting.mpr ⟨hnode, hnil⟩), if_neg hvalues, NodeRollup.roll,
        if_neg hvalues]
      exact congrArg some (Mean.mean_map_div _ 100)

/-- The response has it under the node. -/
lemma utilization_byNode (query : String → Except String Value) (node : String) :
    (fleet query).byNode[node]?.bind (·.utilization) = (rollups query).util[node]? :=
  shown_byNode (fun _ => rfl)
    (fun _ hmem => Rollups.mem_nodes.mpr ⟨(rollups query).util, by simp, hmem⟩) node

/-- The nodes that report are among those of the response. -/
lemma perm_reporting :
    ((rollups (answersOf time daemons others)).nodes.filter (· ∈ reporting daemons)).Perm
      (reporting daemons) := by
  set r := rollups (answersOf time daemons others) with hr
  have hnodup : (reporting daemons).Nodup := List.nodup_dedup _
  refine (List.perm_ext_iff_of_nodup (r.nodup_nodes.filter _) hnodup).mpr fun node => ?_
  rw [List.mem_filter, decide_eq_true_eq]
  refine ⟨And.right, fun hnode => ⟨?_, hnode⟩⟩
  have hsome : r.util[node]?.isSome := by
    rw [getElem?_util, if_pos hnode]
    rfl
  exact Rollups.mem_nodes.mpr ⟨r.util, by simp, ExtTreeMap.isSome_getElem?_iff_mem.mp hsome⟩

/-- What the response has of the utilization, all nodes together. -/
lemma perm_utils :
    ((rollups (answersOf time daemons others)).nodes.filterMap
      ((rollups (answersOf time daemons others)).util[·]?)).Perm
        (((reporting daemons).map (meanBusy daemons)).map (· / 100)) := by
  have hutil : ((rollups (answersOf time daemons others)).util[·]?) = fun node =>
      if node ∈ reporting daemons then some (meanBusy daemons node / 100) else none :=
    funext (getElem?_util time daemons others)
  have hshown (nodes : List String) :
      (nodes.filterMap fun node =>
        if node ∈ reporting daemons then some (meanBusy daemons node / 100) else none) =
      ((nodes.filter (· ∈ reporting daemons)).map (meanBusy daemons)).map (· / 100) := by
    induction nodes with
    | nil => rfl
    | cons node nodes ih =>
        by_cases hnode : node ∈ reporting daemons
        · rw [List.filterMap_cons_some (by rw [if_pos hnode]), ih,
            List.filter_cons_of_pos (by simpa using hnode)]
          rfl
        · rw [List.filterMap_cons_none (by rw [if_neg hnode]), ih,
            List.filter_cons_of_neg (by simpa using hnode)]
  rw [hutil, hshown]
  exact ((perm_reporting time daemons others).map _).map _

/-- The mean of the nodes is the mean of theirs, a hundred times too small. -/
lemma avgUtilization_answersOf (hne : reporting daemons ≠ []) :
    (fleet (answersOf time daemons others)).fleet.avgUtilization =
      some (mean ((reporting daemons).map (meanBusy daemons)) / 100) := by
  have hperm := perm_utils time daemons others
  rw [avgUtilization_fleet, if_neg, Mean.mean_perm hperm, Mean.mean_map_div]
  intro hnil
  rw [hnil, List.nil_perm, List.map_eq_nil_iff, List.map_eq_nil_iff] at hperm
  exact hne hperm

end Shown

/-! ### Percentages -/

lemma percent_of_nonneg {x : ℚ} (hx : 0 ≤ x) : percent x = toString ⌊x + 1 / 2⌋₊ ++ "%" := by
  have hfloor : (⌊x + 1 / 2⌋₊ : ℤ) = ⌊x + 1 / 2⌋ := Int.natCast_floor_eq_floor (by linarith)
  rw [percent, round_eq, ← hfloor]
  rfl

lemma toFixed0_of_nonneg {x : ℚ} (hx : 0 ≤ x) : toFixed0 x ++ "%" = percent x := by
  rw [toFixed0, if_neg hx.not_gt, abs_of_nonneg hx, percent_of_nonneg hx]
  rfl

/-- A fraction is shown as the percentage that it is a hundredth of below one half only. -/
lemma percent_div_eq_iff {x : ℚ} (hx : 0 ≤ x) : percent (x / 100) = percent x ↔ x < 1 / 2 := by
  have hx' : 0 ≤ x / 100 := div_nonneg hx (by norm_num)
  have hround : round (x / 100) = round x ↔ ⌊x / 100 + 1 / 2⌋₊ = ⌊x + 1 / 2⌋₊ := by
    rw [round_eq, round_eq, ← Int.natCast_floor_eq_floor (by linarith),
      ← Int.natCast_floor_eq_floor (by linarith), Nat.cast_inj]
  rw [percent_of_nonneg hx, percent_of_nonneg hx', String.append_left_inj,
    Text.toString_injective.eq_iff, ← hround]
  exact Mean.round_div_eq_round_iff (by norm_num) hx

lemma meanBusy_nonneg (daemons : List Daemon) (node : String) : 0 ≤ meanBusy daemons node := by
  refine Mean.mean_nonneg fun x hx => ?_
  obtain ⟨b, -, rfl⟩ := List.mem_map.mp hx
  exact Nat.cast_nonneg b

lemma meanBusy_lt_iff {daemons : List Daemon} {node : String} (hne : busyOn daemons node ≠ []) :
    meanBusy daemons node < 1 / 2 ↔
      2 * (busyOn daemons node).sum < (busyOn daemons node).length := by
  have hpos : (0 : ℚ) < (busyOn daemons node).length := by
    exact_mod_cast List.length_pos_iff.mpr hne
  rw [meanBusy, mean, List.length_map, ← Nat.cast_list_sum, div_lt_div_iff₀ hpos two_pos,
    one_mul, mul_comm]
  exact_mod_cast Iff.rfl

/-! ### On the pages -/

section Pages

variable (time : ℚ) (daemons : List Daemon) (others : String → Except String Value)

lemma utilization_answersOf {node : String} (hmem : node ∈ reporting daemons) :
    (fleet (answersOf time daemons others)).byNode[node]?.bind (·.utilization) =
      some (meanBusy daemons node / 100) := by
  rw [utilization_byNode, getElem?_util, if_pos hmem]

/-- The row of a node shows a hundredth of the mean of its readings, as a percentage. -/
lemma nodeRowUtil_answersOf {node : String} (hmem : node ∈ reporting daemons) :
    nodeRowUtil (fleet (answersOf time daemons others)).byNode[node]? =
      percent (meanBusy daemons node / 100) := by
  rw [nodeRowUtil, utilization_answersOf time daemons others hmem]
  exact toFixed0_of_nonneg (div_nonneg (meanBusy_nonneg daemons node) (by norm_num))

/-- So does its card in the topology. -/
lemma nodeCardUtil_answersOf {node : String} (hmem : node ∈ reporting daemons) :
    nodeCardUtil (fleet (answersOf time daemons others)).byNode[node]? =
      percent (meanBusy daemons node / 100) := by
  rw [nodeCardUtil, utilization_answersOf time daemons others hmem]
  exact toFixed0_of_nonneg (div_nonneg (meanBusy_nonneg daemons node) (by norm_num))

lemma means_nonneg : ∀ x ∈ (reporting daemons).map (meanBusy daemons), 0 ≤ x := by
  intro x hx
  obtain ⟨node, -, rfl⟩ := List.mem_map.mp hx
  exact meanBusy_nonneg daemons node

/-- The strip shows a hundredth of the mean of the nodes, as a percentage. -/
lemma utilAvgStat_answersOf (hne : reporting daemons ≠ []) {text : String}
    (htext : utilAvgStat (fleet (answersOf time daemons others)) = some text) :
    text = percent (mean ((reporting daemons).map (meanBusy daemons)) / 100) := by
  rw [utilAvgStat, avgUtilization_answersOf time daemons others hne] at htext
  split_ifs at htext with havailable
  rw [← Option.some.inj htext]
  exact toFixed0_of_nonneg (div_nonneg (Mean.mean_nonneg (means_nonneg daemons)) (by norm_num))

/-- **When the unit is kept**: on idle nodes only, whatever else the store answers. -/
theorem keepsUnit_iff :
    KeepsUnit daemons (fleet (answersOf time daemons others)) ↔ Idle daemons := by
  have hnode {node : String} (hmem : node ∈ reporting daemons) :
      percent (meanBusy daemons node / 100) = percent (meanBusy daemons node) ↔
        2 * (busyOn daemons node).sum < (busyOn daemons node).length := by
    rw [percent_div_eq_iff (meanBusy_nonneg daemons node),
      meanBusy_lt_iff (mem_reporting.mp hmem).2]
  constructor
  · intro h node hmem
    have hrow := h.row node hmem
    rw [nodeRowUtil_answersOf time daemons others hmem] at hrow
    exact (hnode hmem).mp hrow
  · intro h
    refine ⟨fun node hmem => ?_, fun node hmem => ?_, fun hne text htext => ?_⟩
    · rw [nodeRowUtil_answersOf time daemons others hmem]
      exact (hnode hmem).mpr (h node hmem)
    · rw [nodeCardUtil_answersOf time daemons others hmem]
      exact (hnode hmem).mpr (h node hmem)
    · -- the means are all below one half, and so is theirs
      have hlt : mean ((reporting daemons).map (meanBusy daemons)) < 1 / 2 := by
        refine Mean.mean_lt (by simpa only [ne_eq, List.map_eq_nil_iff] using hne) fun x hx => ?_
        obtain ⟨node, hmem, rfl⟩ := List.mem_map.mp hx
        exact (meanBusy_lt_iff (mem_reporting.mp hmem).2).mpr (h node hmem)
      rw [utilAvgStat_answersOf time daemons others hne htext]
      exact (percent_div_eq_iff (Mean.mean_nonneg (means_nonneg daemons))).mpr hlt

end Pages

/-- A node with one card that is busy for 87 percent of the time. -/
def busyNode : Daemon where
  inst := "pod-1"
  node := "lun-hisame"
  sysfs := fun path =>
    if path = ["sys", "devices", "pci0000:00", "0000:01:00.0", "gpu_busy_percent"] then some "87\n"
    else none
  listing := fun _ => []
  accels := [⟨⟨.amd, 0, "0000:01:00.0"⟩, "AMD device 0x740f", .unknown, none, none, .full, none,
    false, ["sys", "devices", "pci0000:00", "0000:01:00.0"]⟩]

/-- The response for it, with nothing else in the store. -/
def busyResponse : FleetResponse :=
  fleet (answersOf 300 [busyNode] fun _ => .ok (response []))

/-- The pages show 1 % for it. -/
theorem busyNode_shown :
    nodeRowUtil busyResponse.byNode["lun-hisame"]? = "1%" ∧
    nodeCardUtil busyResponse.byNode["lun-hisame"]? = "1%" ∧
    utilAvgStat busyResponse = some "1%" ∧
    percent (meanBusy [busyNode] "lun-hisame") = "87%" ∧
    ¬ KeepsUnit [busyNode] busyResponse := by
  have hbusy : busyOn [busyNode] "lun-hisame" = [87] := by decide +kernel
  have hreporting : reporting [busyNode] = ["lun-hisame"] := by decide +kernel
  have hmem : "lun-hisame" ∈ reporting [busyNode] := by
    rw [hreporting]
    exact List.mem_singleton_self _
  have hmean : meanBusy [busyNode] "lun-hisame" = 87 := by simp [meanBusy, hbusy, mean]
  have hone : percent (87 / 100) = "1%" := by decide +kernel
  have hwhole : percent 87 = "87%" := by decide +kernel
  have havailable : busyResponse.available := rfl
  have hrow : nodeRowUtil busyResponse.byNode["lun-hisame"]? = "1%" := by
    have h := nodeRowUtil_answersOf 300 [busyNode] (fun _ => .ok (response [])) hmem
    rwa [hmean, hone] at h
  have hcard : nodeCardUtil busyResponse.byNode["lun-hisame"]? = "1%" := by
    have h := nodeCardUtil_answersOf 300 [busyNode] (fun _ => .ok (response [])) hmem
    rwa [hmean, hone] at h
  have hstat : fmtPercent busyResponse.fleet.avgUtilization = "1%" := by
    have h := utilAvgStat_answersOf 300 [busyNode] (fun _ => .ok (response []))
      (List.ne_nil_of_mem hmem) (if_pos havailable)
    rw [hreporting, List.map_singleton, hmean] at h
    exact h.trans (by simp [mean, hone])
  refine ⟨hrow, hcard, ?_, by rw [hmean, hwhole], fun h => ?_⟩
  · rw [utilAvgStat, if_pos havailable, hstat]
  · have hkept := h.row _ hmem
    rw [hrow, hmean, hwhole] at hkept
    exact absurd hkept (by decide)

end Accelrd.Admin
