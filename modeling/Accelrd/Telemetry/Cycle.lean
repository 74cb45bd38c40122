import Mathlib.Tactic
import Accelrd.Admin.Verdict
import Accelrd.Telemetry.Preflight

/-!
What a cycle of `src/telemetry/preflight.rs` leaves on the node for the admin to read.

* `runChecks_eq_note`: what the loops of a cycle collect, said check by check.
* `Agrees`: the labels, the annotation and the record of the admin say the same.
* `cycle_agrees`: so they do after every cycle, whatever was on the node before.
-/

namespace Accelrd.Telemetry

open Std Kube K8s Sensors Accelrd.Topology
open Admin (ProbeRecord readPreflight)

/-- The metadata of a node after a cycle whose patch went through. -/
def afterCycle (checks : List PreflightCheck) (accels : List Accelerator) (labelBase : LabelSet)
    (now : ℕ) (m : ObjectMeta) : ObjectMeta :=
  m.merge (buildMergePatch m (runCycle checks accels labelBase now))

/-! ### What the loops collect -/

/-- What a check has to be run on: each accelerator it applies to, or the node. -/
def PreflightCheck.arguments (accels : List Accelerator) (check : PreflightCheck) :
    List (Option Accelerator) :=
  match check.scope with
  | .singleAccelerator => (accels.filter check.appliesTo).map some
  | .nodeLocal => [none]
  | .nodeTopology => []
  | .cluster => []

/-- The runs of a check on accelerators, from the run number `k` on: a run is listed by the
check and the index of the accelerator. -/
def PreflightCheck.resultsFrom (check : PreflightCheck) (k : ℕ) (accels : List Accelerator) :
    List (String × Status) :=
  (accels.zipIdx k).map fun (a, i) =>
    (check.name ++ "@" ++ toString a.id.drmIndex, check.run i (some a))

/-- The runs of a check in a cycle, each with what it is listed as. -/
def PreflightCheck.results (accels : List Accelerator) (check : PreflightCheck) :
    List (String × Status) :=
  match check.scope with
  | .singleAccelerator => check.resultsFrom 0 (accels.filter check.appliesTo)
  | .nodeLocal => [(check.name, check.run 0 none)]
  | .nodeTopology => []
  | .cluster => []

/-- The entries of the failed runs, in the order of the runs. -/
def failedEntries (results : List (String × Status)) : List String :=
  (results.filter fun r => r.2.isFailed).map Prod.fst

/-- The runs of a check and their results, noted in one go. -/
def CycleState.note (s : CycleState) (runs : List (PreflightCheck × Option Accelerator))
    (results : List (String × Status)) : CycleState where
  ran := s.ran ++ runs
  allOutcomes := s.allOutcomes ++ results.map Prod.snd
  failedChecks := s.failedChecks ++ failedEntries results

lemma failedEntries_append (l l' : List (String × Status)) :
    failedEntries (l ++ l') = failedEntries l ++ failedEntries l' := by
  rw [failedEntries, List.filter_append, List.map_append, failedEntries, failedEntries]

@[simp] lemma CycleState.note_nil (s : CycleState) : s.note [] [] = s := by
  simp [note, failedEntries]

lemma CycleState.note_note (s : CycleState)
    (runs runs' : List (PreflightCheck × Option Accelerator))
    (results results' : List (String × Status)) :
    (s.note runs results).note runs' results' = s.note (runs ++ runs') (results ++ results') := by
  simp [note, failedEntries_append]

lemma CycleState.runOneCheck_eq_note (check : PreflightCheck) (s : CycleState) (k : ℕ)
    (accel : Option Accelerator) (entry : String) :
    s.runOneCheck check k accel entry = s.note [(check, accel)] [(entry, check.run k accel)] := by
  by_cases h : (check.run k accel).isFailed <;> simp [runOneCheck, note, failedEntries, h]

/-- The loop over the accelerators runs the check on those it applies to. -/
lemma CycleState.runAccelerators_eq_note (check : PreflightCheck) (accels : List Accelerator)
    (s : CycleState) (k : ℕ) :
    s.runAccelerators check k accels =
      s.note (((accels.filter check.appliesTo).map some).map (check, ·))
        (check.resultsFrom k (accels.filter check.appliesTo)) := by
  induction accels generalizing s k with
  | nil => exact s.note_nil.symm
  | cons a accels ih =>
      rw [runAccelerators]
      by_cases ha : check.appliesTo a
      · rw [if_pos ha, ih, runOneCheck_eq_note, note_note, List.filter_cons_of_pos ha]
        rfl
      · rw [if_neg ha, ih, List.filter_cons_of_neg ha]

lemma CycleState.runCheck_eq_note (accels : List Accelerator) (s : CycleState)
    (check : PreflightCheck) :
    s.runCheck accels check =
      s.note ((check.arguments accels).map (check, ·)) (check.results accels) := by
  rw [runCheck, PreflightCheck.results, PreflightCheck.arguments]
  cases check.scope with
  | singleAccelerator => exact s.runAccelerators_eq_note check accels 0
  | nodeLocal => exact s.runOneCheck_eq_note check 0 none check.name
  | nodeTopology => exact s.note_nil.symm
  | cluster => exact s.note_nil.symm

lemma CycleState.foldl_runCheck (accels : List Accelerator) (checks : List PreflightCheck)
    (s : CycleState) :
    checks.foldl (CycleState.runCheck accels) s =
      s.note (checks.flatMap fun c => (c.arguments accels).map (c, ·))
        (checks.flatMap (PreflightCheck.results accels)) := by
  induction checks generalizing s with
  | nil => exact s.note_nil.symm
  | cons check checks ih =>
      rw [List.foldl_cons, ih, runCheck_eq_note, note_note, List.flatMap_cons, List.flatMap_cons]

/-- **What the loops collect**, check by check. -/
lemma runChecks_eq_note (checks : List PreflightCheck) (accels : List Accelerator) :
    runChecks checks accels =
      CycleState.note ⟨[], [], []⟩ (checks.flatMap fun c => (c.arguments accels).map (c, ·))
        (checks.flatMap (PreflightCheck.results accels)) :=
  CycleState.foldl_runCheck accels checks _

/-- The set of a cycle, in terms of the results. -/
lemma runCycle_eq_publishReadiness (checks : List PreflightCheck) (accels : List Accelerator)
    (labelBase : LabelSet) (now : ℕ) :
    runCycle checks accels labelBase now =
      publishReadiness ((checks.flatMap (PreflightCheck.results accels)).map Prod.snd)
        (failedEntries (checks.flatMap (PreflightCheck.results accels))) labelBase now := by
  rw [runCycle, runChecks_eq_note]
  exact congrArg₂ (publishReadiness · · labelBase now) (List.nil_append _) (List.nil_append _)

/-! ### The readiness -/

/-- Some run failed, or warned. -/
def AnyFailed (results : List (String × Status)) : Prop :=
  ∃ r ∈ results, r.2 = .fail ∨ r.2 = .warn

/-- Some run passed. -/
def AnyPassed (results : List (String × Status)) : Prop := ∃ r ∈ results, r.2 = .pass

lemma any_isFailed_iff {results : List (String × Status)} :
    (results.map Prod.snd).any Status.isFailed ↔ AnyFailed results := by
  simp [AnyFailed, Status.isFailed]

lemma aggregate_of_anyFailed {results : List (String × Status)} (h : AnyFailed results) :
    aggregate (results.map Prod.snd) = .degraded := by
  rw [aggregate, if_pos (any_isFailed_iff.mpr h)]

lemma aggregate_of_anyPassed {results : List (String × Status)} (hf : ¬ AnyFailed results)
    (h : AnyPassed results) : aggregate (results.map Prod.snd) = .ready := by
  have hpass : (results.map Prod.snd).contains .pass := by simpa [AnyPassed] using h
  rw [aggregate, if_neg (any_isFailed_iff.not.mpr hf), if_pos hpass]

lemma aggregate_of_not_anyPassed {results : List (String × Status)} (hf : ¬ AnyFailed results)
    (h : ¬ AnyPassed results) : aggregate (results.map Prod.snd) = .unknown := by
  have hpass : ¬ (results.map Prod.snd).contains .pass := by simpa [AnyPassed] using h
  rw [aggregate, if_neg (any_isFailed_iff.not.mpr hf), if_neg hpass]

/-- The readiness depends on which statuses other than `skipped` there are. -/
lemma aggregate_congr {l l' : List Status} (h : ∀ s, s ≠ .skipped → (s ∈ l ↔ s ∈ l')) :
    aggregate l = aggregate l' := by
  have hfailed : l.any Status.isFailed = l'.any Status.isFailed := by
    rw [Bool.eq_iff_iff, List.any_eq_true, List.any_eq_true]
    refine exists_congr fun s => and_congr_left fun hs => h s ?_
    rintro rfl
    simp [Status.isFailed] at hs
  have hpass : l.contains .pass = l'.contains .pass := by
    rw [Bool.eq_iff_iff, List.contains_iff_mem, List.contains_iff_mem]
    exact h .pass (by decide)
  rw [aggregate, aggregate, hfailed, hpass]

lemma failedEntries_eq_nil_iff {results : List (String × Status)} :
    failedEntries results = [] ↔ ¬ AnyFailed results := by
  rw [failedEntries, List.map_eq_nil_iff, List.filter_eq_nil_iff, ← any_isFailed_iff,
    List.any_map, List.any_eq_true]
  simp

/-! ### Agreement -/

/-- The labels and the annotation of a node and the record of the admin say what the
results of a cycle are. -/
structure Agrees (results : List (String × Status)) (m : ObjectMeta) (rec : ProbeRecord) :
    Prop where
  training_eq : m.labelAt "accel-ready.lunnova.dev/training" =
    m.labelAt "accel-ready.lunnova.dev/inference"
  degraded : AnyFailed results →
    m.labelAt "accel-ready.lunnova.dev/inference" = some "degraded" ∧
    m.annotationAt "accel-ready.lunnova.dev/failed" =
      some (",".intercalate (failedEntries results)) ∧
    rec.verdict = some "degraded" ∧ rec.reason = some (",".intercalate (failedEntries results))
  ready : AnyPassed results → ¬ AnyFailed results →
    m.labelAt "accel-ready.lunnova.dev/inference" = some "true" ∧ rec.verdict = some "ok"
  unknown : ¬ AnyPassed results → ¬ AnyFailed results →
    m.labelAt "accel-ready.lunnova.dev/inference" = some "unknown" ∧
    rec.verdict = some "unknown"
  clean : ¬ AnyFailed results →
    m.annotationAt "accel-ready.lunnova.dev/failed" = none ∧ rec.reason = none

/-- The topology set says nothing about failed checks. -/
lemma getElem?_build_failed (sysfs : Sysfs) (topology : NodeTopology)
    (accels : List Accelerator) :
    (build sysfs topology accels).annotations["accel-ready.lunnova.dev/failed"]? = none := by
  refine ExtTreeMap.getElem?_ofList_of_contains_eq_false ?_
  have hsingle {key value : String} (hkey : key ≠ "accel-ready.lunnova.dev/failed") :
      ∀ e ∈ [(key, value)], e.1 ≠ "accel-ready.lunnova.dev/failed" :=
    List.forall_mem_singleton.mpr hkey
  have hkey : ∀ e ∈ annotationEntries topology accels,
      e.1 ≠ "accel-ready.lunnova.dev/failed" := by
    simp only [annotationEntries, List.forall_mem_append]
    refine ⟨⟨List.forall_mem_cons.mpr ⟨?_, hsingle (by decide)⟩, ?_⟩, ?_⟩
    · exact show "accel.lunnova.dev/inventory" ≠ "accel-ready.lunnova.dev/failed" by decide
    · split_ifs
      · exact List.forall_mem_nil _
      · exact hsingle (by decide)
    · split_ifs
      · exact List.forall_mem_nil _
      · exact hsingle (by decide)
  rw [List.contains_eq_mem, decide_eq_false_iff_not, List.mem_map]
  rintro ⟨e, he, heq⟩
  exact hkey e he heq

lemma getElem?_inference (outcomes : List Status) (failedChecks : List String)
    (labelBase : LabelSet) (now : ℕ) :
    (publishReadiness outcomes failedChecks labelBase now).labels[
      "accel-ready.lunnova.dev/inference"]? = some (aggregate outcomes).labelValue := by
  dsimp only [publishReadiness]
  rw [ExtTreeMap.getElem?_insert, if_neg (by decide), ExtTreeMap.getElem?_insert_self]

lemma getElem?_training (outcomes : List Status) (failedChecks : List String)
    (labelBase : LabelSet) (now : ℕ) :
    (publishReadiness outcomes failedChecks labelBase now).labels[
      "accel-ready.lunnova.dev/training"]? = some (aggregate outcomes).labelValue :=
  ExtTreeMap.getElem?_insert_self

lemma getElem?_failed (outcomes : List Status) (failedChecks : List String)
    {labelBase : LabelSet} (now : ℕ)
    (h : labelBase.annotations["accel-ready.lunnova.dev/failed"]? = none) :
    (publishReadiness outcomes failedChecks labelBase now).annotations[
      "accel-ready.lunnova.dev/failed"]? =
      if failedChecks = [] then none else some (",".intercalate failedChecks) := by
  dsimp only [publishReadiness]
  split_ifs with hnil
  · simpa [ExtTreeMap.getElem?_insert] using h
  · exact ExtTreeMap.getElem?_insert_self

/-- Named checks have named entries. -/
lemma ne_empty_of_mem_results {checks : List PreflightCheck} {accels : List Accelerator}
    (hnames : ∀ c ∈ checks, c.name ≠ "") :
    ∀ r ∈ checks.flatMap (PreflightCheck.results accels), r.1 ≠ "" := by
  intro r hr
  obtain ⟨check, hcheck, hr⟩ := List.mem_flatMap.mp hr
  have hname := hnames check hcheck
  rw [PreflightCheck.results] at hr
  cases hscope : check.scope with
  | singleAccelerator =>
      rw [hscope] at hr
      obtain ⟨⟨a, i⟩, -, rfl⟩ := List.mem_map.mp hr
      exact fun heq =>
        hname (String.append_eq_empty_iff.mp (String.append_eq_empty_iff.mp heq).1).1
  | nodeLocal =>
      rw [hscope] at hr
      obtain rfl := List.mem_singleton.mp hr
      exact hname
  | nodeTopology => simp [hscope] at hr
  | cluster => simp [hscope] at hr

lemma intercalate_failedEntries_ne_empty {results : List (String × Status)}
    (hnames : ∀ r ∈ results, r.1 ≠ "") (h : AnyFailed results) :
    ",".intercalate (failedEntries results) ≠ "" := by
  cases hentries : failedEntries results with
  | nil => exact absurd h (failedEntries_eq_nil_iff.mp hentries)
  | cons w ws =>
      have hw : w ∈ failedEntries results := by
        rw [hentries]
        exact List.mem_cons_self
      obtain ⟨r, hr, rfl⟩ := List.mem_map.mp hw
      exact Text.intercalate_ne_empty _ (hnames r (List.mem_filter.mp hr).1) ws

/-- **Agreement from the keys**: it is enough that a node has the readiness and the joined
entries of the results under the keys of the daemon. -/
lemma agrees_of_keys {results : List (String × Status)} {m : ObjectMeta}
    (hnames : ∀ r ∈ results, r.1 ≠ "")
    (hinference : m.labelAt "accel-ready.lunnova.dev/inference" =
      some (aggregate (results.map Prod.snd)).labelValue)
    (htraining : m.labelAt "accel-ready.lunnova.dev/training" =
      some (aggregate (results.map Prod.snd)).labelValue)
    (hfailed : m.annotationAt "accel-ready.lunnova.dev/failed" =
      if failedEntries results = [] then none
      else some (",".intercalate (failedEntries results))) :
    ∃ rec, readPreflight (m.labels.getD ∅) (m.annotations.getD ∅) = some rec ∧
      Agrees results m rec := by
  rw [ObjectMeta.annotationAt] at hfailed
  refine ⟨_, congrArg (Option.map _) hinference, ?_⟩
  refine ⟨htraining.trans hinference.symm, fun h => ?_, fun hp hf => ?_, fun hp hf => ?_,
    fun hf => ?_⟩
  · have hne : failedEntries results ≠ [] := fun hnil => failedEntries_eq_nil_iff.mp hnil h
    rw [if_neg hne] at hfailed
    rw [hinference, aggregate_of_anyFailed h]
    exact ⟨rfl, hfailed, rfl,
      Admin.readOptional_of_getElem? hfailed (intercalate_failedEntries_ne_empty hnames h)⟩
  · rw [hinference, aggregate_of_anyPassed hf hp]
    exact ⟨rfl, rfl⟩
  · rw [hinference, aggregate_of_not_anyPassed hf hp]
    exact ⟨rfl, rfl⟩
  · rw [if_pos (failedEntries_eq_nil_iff.mpr hf)] at hfailed
    exact ⟨hfailed, Admin.readOptional_of_none hfailed⟩

/-- The keys of a node after a cycle. -/
lemma settled_afterCycle (checks : List PreflightCheck) (accels : List Accelerator)
    {labelBase : LabelSet} (h : OnlyManaged labelBase) (now : ℕ) (m : ObjectMeta) {k : String}
    (hk : Managed k) :
    (afterCycle checks accels labelBase now m).labelAt k =
      (runCycle checks accels labelBase now).labels[k]? ∧
    (afterCycle checks accels labelBase now m).annotationAt k =
      (runCycle checks accels labelBase now).annotations[k]? :=
  (Settled.merge (settled_buildMergePatch m (onlyManaged_publishReadiness _ _ h now))).1 k hk

/-- Checks that are skipped on all their arguments do not count. -/
lemma aggregate_results_of_skipped {checks checks' skipped : List PreflightCheck}
    {accels : List Accelerator} (hskipped : ∀ c ∈ skipped, ∀ r ∈ c.results accels, r.2 = .skipped)
    (h : checks'.Perm (checks ++ skipped)) :
    aggregate ((checks'.flatMap (PreflightCheck.results accels)).map Prod.snd) =
      aggregate ((checks.flatMap (PreflightCheck.results accels)).map Prod.snd) := by
  refine aggregate_congr fun s hs => ?_
  have hnot : s ∉ (skipped.flatMap (PreflightCheck.results accels)).map Prod.snd := by
    intro hmem
    obtain ⟨r, hr, rfl⟩ := List.mem_map.mp hmem
    obtain ⟨c, hc, hr⟩ := List.mem_flatMap.mp hr
    exact hs (hskipped c hc r hr)
  rw [((h.flatMap_right _).map _).mem_iff, List.flatMap_append, List.map_append, List.mem_append]
  exact or_iff_left hnot

/-- **Preflight, node and admin agree.** A cycle runs each check once on each of its
arguments, in order; afterwards, whatever the node had on it before, the readiness labels,
the list of failed checks and the admin's record all say what the results were; and checks
that are skipped throughout could as well not be there. -/
theorem cycle_agrees (checks : List PreflightCheck) (hnames : ∀ c ∈ checks, c.name ≠ "")
    (accels : List Accelerator) (sysfs : Sysfs) (topology : NodeTopology)
    (inventory : List Accelerator) (now : ℕ) (m : ObjectMeta) :
    (runChecks checks accels).ran = checks.flatMap (fun c => (c.arguments accels).map (c, ·)) ∧
    (∃ rec,
      readPreflight
        ((afterCycle checks accels (build sysfs topology inventory) now m).labels.getD ∅)
        ((afterCycle checks accels (build sysfs topology inventory) now m).annotations.getD ∅)
        = some rec ∧
      Agrees (checks.flatMap (PreflightCheck.results accels))
        (afterCycle checks accels (build sysfs topology inventory) now m) rec) ∧
    ∀ skipped checks' : List PreflightCheck,
      (∀ c ∈ skipped, ∀ r ∈ c.results accels, r.2 = .skipped) →
      checks'.Perm (checks ++ skipped) →
      ∀ key ∈ ["accel-ready.lunnova.dev/inference", "accel-ready.lunnova.dev/training"],
        (afterCycle checks' accels (build sysfs topology inventory) now m).labelAt key =
          (afterCycle checks accels (build sysfs topology inventory) now m).labelAt key := by
  have hbuild := onlyManaged_build sysfs topology inventory
  have hinference (checks : List PreflightCheck) :
      (afterCycle checks accels (build sysfs topology inventory) now m).labelAt
        "accel-ready.lunnova.dev/inference" = some (aggregate
          ((checks.flatMap (PreflightCheck.results accels)).map Prod.snd)).labelValue := by
    rw [(settled_afterCycle checks accels hbuild now m (by decide)).1,
      runCycle_eq_publishReadiness, getElem?_inference]
  have htraining (checks : List PreflightCheck) :
      (afterCycle checks accels (build sysfs topology inventory) now m).labelAt
        "accel-ready.lunnova.dev/training" = some (aggregate
          ((checks.flatMap (PreflightCheck.results accels)).map Prod.snd)).labelValue := by
    rw [(settled_afterCycle checks accels hbuild now m (by decide)).1,
      runCycle_eq_publishReadiness, getElem?_training]
  refine ⟨?ran, ?agrees, ?skipped⟩
  case ran =>
    rw [runChecks_eq_note]
    exact List.nil_append _
  case agrees =>
    refine agrees_of_keys (ne_empty_of_mem_results hnames) (hinference checks) (htraining checks) ?_
    rw [(settled_afterCycle checks accels hbuild now m (by decide)).2,
      runCycle_eq_publishReadiness,
      getElem?_failed _ _ now (getElem?_build_failed sysfs topology inventory)]
  case skipped =>
    intro skipped checks' hskipped hperm
    have hstatus := aggregate_results_of_skipped hskipped hperm
    intro key hkey
    fin_cases hkey
    · exact (hinference checks').trans (hstatus ▸ (hinference checks).symm)
    · exact (htraining checks').trans (hstatus ▸ (htraining checks).symm)

/-- A check of the cards of a vendor that fails the second time it is run. -/
def secondFails : PreflightCheck :=
  ⟨"driver.loaded", .singleAccelerator, fun a => a.id.vendor = .amd,
    fun k _ => if k = 1 then .fail else .pass⟩

/-- A check of the node that warns. -/
def warnedCheck : PreflightCheck :=
  ⟨"host.disk.free", .nodeLocal, fun _ => false, fun _ _ => .warn⟩

/-- A node that an earlier cycle has listed another check on. -/
def formerlyFailed : ObjectMeta where
  name := some "node-a"
  annotations := some (ExtTreeMap.ofList [("accel-ready.lunnova.dev/failed", "memory.floor@0")])

/-- The first check is run on the cards 0 and 3, and not on the card between them; the new
list has taken the place of the old one. -/
theorem cycle_agrees_warned :
    let checks := [secondFails, warnedCheck]
    let first := bareCard ⟨.amd, 0, "0000:01:00.0"⟩ ["card0"]
    let other := bareCard ⟨.nvidia, 1, "0000:02:00.0"⟩ ["card1"]
    let second := bareCard ⟨.amd, 3, "0000:03:00.0"⟩ ["card3"]
    let accels := [first, other, second]
    let m := afterCycle checks accels (build (fun _ => none) ⟨none, none, [], [], ⟨[]⟩⟩ accels)
      1778157296 formerlyFailed
    (runChecks checks accels).ran =
      [(secondFails, some first), (secondFails, some second), (warnedCheck, none)] ∧
    ∃ rec, readPreflight (m.labels.getD ∅) (m.annotations.getD ∅) = some rec ∧
      rec.verdict = some "degraded" ∧ rec.reason = some "driver.loaded@3,host.disk.free" := by
  intro checks first other second accels m
  have hnames : ∀ c ∈ checks, c.name ≠ "" :=
    List.forall_mem_cons.mpr ⟨by decide, List.forall_mem_singleton.mpr (by decide)⟩
  obtain ⟨hran, ⟨rec, hrec, hagrees⟩, -⟩ := cycle_agrees checks hnames accels (fun _ => none)
    ⟨none, none, [], [], ⟨[]⟩⟩ accels 1778157296 formerlyFailed
  obtain ⟨-, -, hverdict, hreason⟩ :=
    hagrees.degraded ⟨("host.disk.free", .warn), List.mem_of_getElem? (i := 2) rfl, Or.inr rfl⟩
  exact ⟨hran.trans rfl, rec, hrec, hverdict, hreason.trans (by decide)⟩

end Accelrd.Telemetry
