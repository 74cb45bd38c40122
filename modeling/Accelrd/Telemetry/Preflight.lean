import Mathlib.Tactic
import Accelrd.Time
import Accelrd.K8s.Labeler
import Accelrd.Topology.Published

/-!
`src/preflight/mod.rs` and `src/telemetry/preflight.rs`: one cycle of the preflight checks,
and the set of labels and annotations that the daemon wants on its node afterwards.

* `runChecks`, `runCycle`: the loops over the checks, with the three lists they collect, and
  the readiness keys added to the topology set.
* `onlyManaged_build`, `onlyManaged_publishReadiness`: whatever the hardware, the switches
  and the checks say, the daemon publishes under its own prefixes only.
-/

namespace Accelrd.Telemetry

open Std Sensors Accelrd.Topology K8s

/-! ### Checks -/

/-- `CheckScope`. -/
inductive CheckScope where
  | singleAccelerator
  | nodeLocal
  | nodeTopology
  | cluster
  deriving DecidableEq

/-- `Status`. -/
inductive Status where
  | pass
  | warn
  | fail
  | skipped
  deriving DecidableEq

/-- `NodeReadiness`. -/
inductive NodeReadiness where
  | ready
  | degraded
  | notReady
  | unknown
  deriving DecidableEq

/-- `NodeReadiness::label_value`. -/
def NodeReadiness.labelValue : NodeReadiness → String
  | .ready => "true"
  | .degraded => "degraded"
  | .notReady => "false"
  | .unknown => "unknown"

/-- `Status::Fail | Status::Warn`. -/
def Status.isFailed (s : Status) : Bool := s = .fail || s = .warn

/-- `aggregate`. -/
def aggregate (outcomes : List Status) : NodeReadiness :=
  if outcomes.any Status.isFailed then .degraded
  else if outcomes.contains .pass then .ready
  else .unknown

/-- A check in the course of one cycle: `run k` is the status of its run number `k`, for an
accelerator or for the node, whatever the earlier runs have changed. -/
structure PreflightCheck where
  name : String
  scope : CheckScope
  appliesTo : Accelerator → Bool
  run : ℕ → Option Accelerator → Status

/-! ### A cycle -/

/-- What the loops have collected, beside the runs they have made. -/
structure CycleState where
  ran : List (PreflightCheck × Option Accelerator)
  allOutcomes : List Status
  failedChecks : List String

/-- `run_one_check`, and what is noted of it: the run number `k` of the check, which is
listed as `entry` if it fails. -/
def CycleState.runOneCheck (check : PreflightCheck) (s : CycleState) (k : ℕ)
    (accel : Option Accelerator) (entry : String) : CycleState where
  ran := s.ran ++ [(check, accel)]
  allOutcomes := s.allOutcomes ++ [check.run k accel]
  failedChecks :=
    if (check.run k accel).isFailed then s.failedChecks ++ [entry] else s.failedChecks

/-- The loop over the accelerators, after `k` runs of the check. -/
def CycleState.runAccelerators (check : PreflightCheck) :
    CycleState → ℕ → List Accelerator → CycleState
  | s, _, [] => s
  | s, k, a :: accels =>
      if check.appliesTo a then
        runAccelerators check
          (s.runOneCheck check k (some a) (check.name ++ "@" ++ toString a.id.drmIndex))
          (k + 1) accels
      else runAccelerators check s k accels

/-- One round of the loop over the checks. -/
def CycleState.runCheck (accels : List Accelerator) (s : CycleState) (check : PreflightCheck) :
    CycleState :=
  match check.scope with
  | .singleAccelerator => s.runAccelerators check 0 accels
  | .nodeLocal => s.runOneCheck check 0 none check.name
  -- checks with these scopes are not dispatched
  | .nodeTopology => s
  | .cluster => s

/-- The loops of `run_cycle`. -/
def runChecks (checks : List PreflightCheck) (accels : List Accelerator) : CycleState :=
  checks.foldl (CycleState.runCheck accels) ⟨[], [], []⟩

/-- The end of `run_cycle`: the readiness keys, for the statuses and the failed entries
that the loops have collected. -/
def publishReadiness (outcomes : List Status) (failedChecks : List String) (labelBase : LabelSet)
    (now : ℕ) : LabelSet :=
  let inference := aggregate outcomes
  let training := inference
  let annotations := labelBase.annotations.insert "accel-ready.lunnova.dev/last-check"
    (Time.nowRfc3339 now)
  { labels := (labelBase.labels.insert "accel-ready.lunnova.dev/inference"
      inference.labelValue).insert "accel-ready.lunnova.dev/training" training.labelValue
    annotations :=
      if failedChecks = [] then annotations
      else annotations.insert "accel-ready.lunnova.dev/failed" (",".intercalate failedChecks) }

/-- `run_cycle`: the set it hands to the labeler, when the clock reads `now`. -/
def runCycle (checks : List PreflightCheck) (accels : List Accelerator) (labelBase : LabelSet)
    (now : ℕ) : LabelSet :=
  publishReadiness (runChecks checks accels).allOutcomes (runChecks checks accels).failedChecks
    labelBase now

/-- What the daemon has found out when a cycle ends. -/
structure Cycle where
  sysfs : Sysfs
  topology : NodeTopology
  accelerators : List Accelerator
  checks : List PreflightCheck
  clock : ℕ

/-- The set the daemon wants on its node after the cycle. -/
def Cycle.desired (c : Cycle) : LabelSet :=
  runCycle c.checks c.accelerators (build c.sysfs c.topology c.accelerators) c.clock

/-! ### The daemon keeps to its own prefixes -/

lemma managed_append {p : String} (hp : Managed p) (s : String) : Managed (p ++ s) := by
  obtain ⟨q, hq, hpq⟩ := List.any_eq_true.mp hp
  exact List.any_eq_true.mpr ⟨q, hq, Text.startsWith_trans (Text.startsWith_append p s) hpq⟩

lemma managed_ofList {l : List (String × String)} (h : ∀ e ∈ l, Managed e.1) {k : String}
    (hk : k ∈ (ExtTreeMap.ofList l : StrMap)) : Managed k := by
  rw [ExtTreeMap.mem_ofList, List.contains_eq_mem, decide_eq_true_eq, List.mem_map] at hk
  obtain ⟨e, he, rfl⟩ := hk
  exact h e he

lemma managed_cons {key value : String} {l : List (String × String)} (hkey : Managed key)
    (hl : ∀ e ∈ l, Managed e.1) : ∀ e ∈ (key, value) :: l, Managed e.1 :=
  List.forall_mem_cons.mpr ⟨hkey, hl⟩

lemma managed_singleton {key value : String} (hkey : Managed key) :
    ∀ e ∈ [(key, value)], Managed e.1 :=
  managed_cons hkey (List.forall_mem_nil _)

/-- Every label that `build` inserts: the literals of the groups are under the prefixes. -/
lemma managed_labelEntries (sysfs : Sysfs) (topology : NodeTopology) (accels : List Accelerator) :
    ∀ e ∈ labelEntries sysfs topology accels, Managed e.1 := by
  have hliterals : ∀ p ∈ labelLiterals, Managed p := by decide
  intro e he
  rw [labelEntries_eq, List.mem_flatMap] at he
  obtain ⟨g, hg, heg⟩ := he
  obtain ⟨rest, hrest⟩ := Text.exists_eq_append (startsWith_of_mem_labelGroups g hg e heg)
  rw [hrest]
  exact managed_append (hliterals g.1 (List.mem_map_of_mem hg)) rest

lemma managed_annotationEntries (topology : NodeTopology) (accels : List Accelerator) :
    ∀ e ∈ annotationEntries topology accels, Managed e.1 := by
  simp only [annotationEntries, List.forall_mem_append]
  refine ⟨⟨managed_cons (by decide) (managed_singleton (by decide)), ?_⟩, ?_⟩
  · split_ifs
    · exact List.forall_mem_nil _
    · exact managed_singleton (by decide)
  · split_ifs
    · exact List.forall_mem_nil _
    · exact managed_singleton (by decide)

/-- **The topology set keeps to the prefixes of the daemon**, whatever the node looks
like. -/
theorem onlyManaged_build (sysfs : Sysfs) (topology : NodeTopology) (accels : List Accelerator) :
    OnlyManaged (build sysfs topology accels) :=
  ⟨fun _ => managed_ofList (managed_labelEntries sysfs topology accels),
    fun _ => managed_ofList (managed_annotationEntries topology accels)⟩

lemma managed_insert {m : StrMap} (h : ∀ k ∈ m, Managed k) {key value : String}
    (hkey : Managed key) : ∀ k ∈ m.insert key value, Managed k := by
  intro k hk
  rcases ExtTreeMap.mem_insert.mp hk with heq | hk
  · rwa [← Std.compare_eq_iff_eq.mp heq]
  · exact h k hk

/-- A cycle adds readiness keys only. -/
lemma onlyManaged_publishReadiness (outcomes : List Status) (failedChecks : List String)
    {labelBase : LabelSet} (h : OnlyManaged labelBase) (now : ℕ) :
    OnlyManaged (publishReadiness outcomes failedChecks labelBase now) where
  labels := managed_insert (managed_insert h.labels (by decide)) (by decide)
  annotations := by
    have hlast := @managed_insert _ h.annotations "accel-ready.lunnova.dev/last-check"
      (Time.nowRfc3339 now) (by decide)
    dsimp only [publishReadiness]
    split_ifs
    · exact hlast
    · exact managed_insert hlast (by decide)

lemma Cycle.onlyManaged (c : Cycle) : OnlyManaged c.desired :=
  onlyManaged_publishReadiness _ _ (onlyManaged_build _ _ _) _

end Accelrd.Telemetry
