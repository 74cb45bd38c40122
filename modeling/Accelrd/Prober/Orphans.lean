import Mathlib.Tactic
import Accelrd.Library.Machine
import Accelrd.Time

/-!
`cleanup_orphans` of `src/prober/pods.rs`, as `run_once` calls it: which probe pods are deleted
before a pass.

* `cleanupOrphans_named`: a pod is deleted if its timestamp is a smaller string than the cutoff.
* `cleanupOrphans_of_le`: with enough time since 1970 this is the age of the pod.
* `cleanupSafe_iff`: when the arithmetic and the order of the strings allow it.
-/

namespace Accelrd.Prober

open Machine Time

/-! ### The code -/

/-- What `cleanup_orphans` reads off a pod; the time of creation is in seconds. -/
structure ProbePod where
  name : Option String
  creationTimestamp : Option ℤ

/-- `args.test_duration_secs * 4 + 600` of `run_once`, which wraps in a release build. -/
def maxAgeSecs (testDurationSecs : ℕ) : ℕ := (testDurationSecs * 4 % 2 ^ 64 + 600) % 2 ^ 64

/-- The time `probe_pair` waits for the IP of the server pod. -/
def podIpTimeoutSecs : ℕ := 60

/-- The time `probe_pair` waits for the client pod. -/
def totalTimeoutSecs (testDurationSecs : ℕ) : ℕ := (testDurationSecs + 120) % 2 ^ 64

/-- `cutoff_rfc3339` of `cleanup_orphans`. The subtraction wraps as well. -/
def orphanCutoff (now maxAge : ℕ) : String :=
  rfc3339At (asI64 ((now + 2 ^ 64 - maxAge) % 2 ^ 64))

/-- `stale` of `cleanup_orphans`. -/
def ProbePod.stale (pod : ProbePod) (cutoff : String) : Bool :=
  match pod.creationTimestamp.map rfc3339At with
  | some c => c < cutoff
  | none => false

/-- `cleanup_orphans`: the names of the pods it deletes, given the answer to the list
request. -/
def cleanupOrphans (now maxAge : ℕ) (list : Option (List ProbePod)) : List String :=
  match list with
  | none => []
  | some pods =>
      pods.filterMap fun pod => do
        let name ← pod.name
        if pod.stale (orphanCutoff now maxAge) then some name else none

/-- The arithmetic of `run_once` and `cleanup_orphans`, operation by operation. -/
def checkedCutoff (now testDurationSecs : ℕ) : Option ℕ := do
  let quadruple ← unsigned 64 (testDurationSecs * 4)
  let maxAge ← unsigned 64 (quadruple + 600)
  unsigned 64 (now - maxAge)

/-! ### Ages -/

/-- A pod with a name and a time of creation. -/
def ProbePod.named (p : String × ℤ) : ProbePod := ⟨some p.1, some p.2⟩

lemma cleanupOrphans_named (now maxAge : ℕ) (pods : List (String × ℤ)) :
    cleanupOrphans now maxAge (some (pods.map ProbePod.named)) =
      (pods.filter fun p => rfc3339At p.2 < orphanCutoff now maxAge).map Prod.fst := by
  rw [cleanupOrphans]
  induction pods with
  | nil => rfl
  | cons p pods ih =>
      by_cases h : rfc3339At p.2 < orphanCutoff now maxAge
      · rw [List.map_cons, List.filter_cons_of_pos (by simpa using h), List.map_cons, ← ih,
          List.filterMap_cons_some]
        simp [ProbePod.named, ProbePod.stale, h]
      · rw [List.map_cons, List.filter_cons_of_neg (by simpa using h), ← ih,
          List.filterMap_cons_none]
        simp [ProbePod.named, ProbePod.stale, h]

lemma orphanCutoff_eq {now maxAge : ℕ} (hnow : now < 2 ^ 64) (h : maxAge ≤ now) :
    orphanCutoff now maxAge = rfc3339At (asI64 (now - maxAge)) := by
  have hsub : (now + 2 ^ 64 - maxAge) % 2 ^ 64 = now - maxAge := by omega
  rw [orphanCutoff, hsub]

/-- **Deleted are the pods that are too old**, for a clock that has run for this age, if the
cutoff is before the year 10000. -/
theorem cleanupOrphans_of_le {now maxAge : ℕ} (hnow : now < 2 ^ 64) (h : maxAge ≤ now)
    (hcut : (now : ℤ) - maxAge < yearTenThousand) {pods : List (String × ℤ)}
    (hpods : ∀ p ∈ pods, 0 ≤ p.2 ∧ p.2 < yearTenThousand) :
    cleanupOrphans now maxAge (some (pods.map ProbePod.named)) =
      (pods.filter fun p => (maxAge : ℤ) < now - p.2).map Prod.fst := by
  have hcut' := hcut
  simp only [yearTenThousand] at hcut'
  have hsecs : asI64 (now - maxAge) = now - maxAge := by
    rw [asI64_of_lt (by omega)]
    omega
  rw [cleanupOrphans_named, orphanCutoff_eq hnow h, hsecs]
  refine congrArg (List.map Prod.fst) (List.filter_congr fun p hp => ?_)
  obtain ⟨hlo, hhi⟩ := hpods p hp
  have hzero : yearZero ≤ p.2 := le_trans (by decide) hlo
  refine decide_eq_decide.mpr ⟨fun hlt => ?_, fun hlt => ?_⟩
  · have := lt_of_rfc3339At_lt hzero hhi hlt
    omega
  · exact rfc3339At_lt (by omega) (le_trans hzero (by omega)) hcut

/-- With a cutoff after the year 9999 all pods are too old, and their timestamps are smaller
strings if the last of that year is. -/
lemma cleanupOrphans_late {now maxAge : ℕ} (hcut : yearTenThousand ≤ (now : ℤ) - maxAge)
    (hlast : rfc3339At (yearTenThousand - 1) < orphanCutoff now maxAge)
    {pods : List (String × ℤ)} (hpods : ∀ p ∈ pods, 0 ≤ p.2 ∧ p.2 < yearTenThousand) :
    cleanupOrphans now maxAge (some (pods.map ProbePod.named)) =
      (pods.filter fun p => (maxAge : ℤ) < now - p.2).map Prod.fst := by
  rw [cleanupOrphans_named]
  refine congrArg (List.map Prod.fst) (List.filter_congr fun p hp => ?_)
  obtain ⟨-, hhi⟩ := hpods p hp
  have hle : rfc3339At p.2 ≤ rfc3339At (yearTenThousand - 1) :=
    rfc3339At_le (by omega) (by decide) (by omega)
  exact decide_eq_decide.mpr ⟨fun _ => by omega, fun _ => hle.trans_lt hlast⟩

/-- The arithmetic stays in its range exactly if the clock has run for the age. -/
lemma isSome_checkedCutoff_iff {now d : ℕ} (hnow : now < 2 ^ 64) :
    (checkedCutoff now d).isSome ↔ 4 * d + 600 ≤ now := by
  constructor
  · intro h
    obtain ⟨c, hc⟩ := Option.isSome_iff_exists.mp h
    rw [checkedCutoff] at hc
    obtain ⟨a, ha, hc⟩ := Option.bind_eq_some_iff.mp hc
    obtain ⟨b, hb, hc⟩ := Option.bind_eq_some_iff.mp hc
    have ha' := unsigned_eq_some_iff.mp ha
    have hb' := unsigned_eq_some_iff.mp hb
    have hc' := unsigned_eq_some_iff.mp hc
    omega
  · intro h
    refine Option.isSome_iff_exists.mpr ⟨now - (4 * d + 600), ?_⟩
    rw [checkedCutoff]
    refine bind_of_eq (unsigned_of_eq (k := d * 4) (by omega) (by omega)) ?_
    refine bind_of_eq (unsigned_of_eq (k := d * 4 + 600) (by omega) (by omega)) ?_
    exact unsigned_of_eq (by omega) (by omega)

/-- **Cleanup is safe** for a test duration: the arithmetic stays in its range, deleted are
exactly the pods older than four times the duration and ten minutes, and a probe waits for its
pods no longer than that. -/
structure CleanupSafe (now d : ℕ) : Prop where
  fits : (checkedCutoff now d).isSome
  exact_age : ∀ pods : List (String × ℤ), (∀ p ∈ pods, 0 ≤ p.2 ∧ p.2 < yearTenThousand) →
    cleanupOrphans now (maxAgeSecs d) (some (pods.map ProbePod.named)) =
      (pods.filter fun p => ((4 * d + 600 : ℕ) : ℤ) < now - p.2).map Prod.fst
  waits_less : podIpTimeoutSecs + totalTimeoutSecs d < 4 * d + 600

/-- **When cleanup is safe**: when the clock has run for the age, and the cutoff is before the
year 10000 or at least has a larger timestamp than the last second before. -/
theorem cleanupSafe_iff {now d : ℕ} (hnow : now < 2 ^ 64) :
    CleanupSafe now d ↔ 4 * d + 600 ≤ now ∧
      ((now : ℤ) - (4 * d + 600 : ℕ) < yearTenThousand ∨
        rfc3339At (yearTenThousand - 1) < rfc3339At (asI64 (now - (4 * d + 600)))) := by
  have hage (hle : 4 * d + 600 ≤ now) : maxAgeSecs d = 4 * d + 600 := by
    rw [maxAgeSecs]
    omega
  constructor
  · intro h
    have hle := (isSome_checkedCutoff_iff hnow).mp h.fits
    refine ⟨hle, or_iff_not_imp_left.mpr fun hcut => ?_⟩
    -- a pod of the last second of the year 9999 is deleted
    have hold : ((4 * d + 600 : ℕ) : ℤ) < now - (yearTenThousand - 1) := by omega
    have hmem : "" ∈ cleanupOrphans now (maxAgeSecs d)
        (some ([("", yearTenThousand - 1)].map ProbePod.named)) := by
      rw [h.exact_age [("", yearTenThousand - 1)] (by decide)]
      exact List.mem_map.mpr ⟨_, List.mem_filter.mpr ⟨List.mem_singleton_self _,
        decide_eq_true hold⟩, rfl⟩
    rw [hage hle, cleanupOrphans_named, orphanCutoff_eq hnow hle] at hmem
    obtain ⟨p, hp, -⟩ := List.mem_map.mp hmem
    obtain ⟨hp, hlt⟩ := List.mem_filter.mp hp
    rw [List.mem_singleton.mp hp] at hlt
    exact of_decide_eq_true hlt
  · rintro ⟨hle, hcut⟩
    refine ⟨(isSome_checkedCutoff_iff hnow).mpr hle, fun pods hpods => ?_, ?_⟩
    · rw [hage hle]
      by_cases hearly : (now : ℤ) - (4 * d + 600 : ℕ) < yearTenThousand
      · exact cleanupOrphans_of_le hnow hle hearly hpods
      · rw [← orphanCutoff_eq hnow hle] at hcut
        exact cleanupOrphans_late (not_lt.mp hearly) (hcut.resolve_left hearly) hpods
    · rw [podIpTimeoutSecs, totalTimeoutSecs]
      omega

theorem cleanupSafe_default : CleanupSafe 1778157296 30 :=
  (cleanupSafe_iff (by decide)).mpr ⟨by decide, Or.inl (by decide)⟩

/-- At the duration `2^62` the product wraps to zero, and a pod that has run for eleven minutes
is deleted. -/
theorem cleanup_deletes_young :
    checkedCutoff 1778157296 (2 ^ 62) = none ∧
    cleanupOrphans 1778157296 (maxAgeSecs (2 ^ 62))
      (some [ProbePod.named ("accelrd-probe-client-x", 1778156636)])
      = ["accelrd-probe-client-x"] ∧
    ¬ (4 * 2 ^ 62 + 600 : ℤ) < 1778157296 - 1778156636 := by
  decide +kernel

end Accelrd.Prober
