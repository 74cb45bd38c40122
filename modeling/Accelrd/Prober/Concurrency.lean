import Mathlib.Tactic
import Accelrd.Library.Permits
import Accelrd.Library.Text
import Accelrd.Prober.Dispatch

/-!
`src/prober/mod.rs` and `src/prober/reconcile.rs`: how many probes a pass may run at a time,
and the loop that asks for a permit before each of them.

* `maxConcurrentPairs`: the limit that `resolve` takes from the flag, the environment or the
  default.
* `step_slots`: the pass, seen from its semaphore, is a loop with permits.
* `dispatch_live_iff`: the loop neither loses a permit nor gets stuck, unless the limit is
  zero and there is something to probe.
-/

namespace Accelrd.Prober

open Std Kube

/-! ### The limit -/

/-- `env_u64`, from what the environment has under the key. -/
def envU64 (value : Option String) : Option UInt64 :=
  (value.bind fun s => Text.parseUnsigned 64 s.toList).map UInt64.ofNat

/-- `max_concurrent_pairs` of `ProberArgs::resolve`, from the flag and the value of
`ACCELRD_PROBER_MAX_CONCURRENT_PAIRS`. -/
def maxConcurrentPairs (flag : Option UInt32) (env : Option String) : UInt32 :=
  (flag.or ((envU64 env).map UInt64.toUInt32)).getD 4

/-- `Semaphore::MAX_PERMITS`, where `usize` has 64 bits. -/
def maxPermits : ℕ := (2 ^ 64 - 1) >>> 3

/-- `Semaphore::new`, which panics if there are too many permits. -/
def newSemaphore (permits : ℕ) : Option ℕ := if permits ≤ maxPermits then some permits else none

/-- The loop of `run_once` before its first round. -/
def startDispatch (flag : Option UInt32) (env : Option String)
    (racks : List (String × List NodeView)) :
    Option (Permits.State (String × List NodeView) Task) :=
  (newSemaphore (maxConcurrentPairs flag env).toNat).map fun permits => ⟨racks, permits, []⟩

/-- No limit is too large for the semaphore. -/
lemma startDispatch_eq (flag : Option UInt32) (env : Option String)
    (racks : List (String × List NodeView)) :
    startDispatch flag env racks = some ⟨racks, (maxConcurrentPairs flag env).toNat, []⟩ := by
  have hlt : (maxConcurrentPairs flag env).toNat < 2 ^ 32 := UInt32.toNat_lt _
  have hle : (maxConcurrentPairs flag env).toNat ≤ maxPermits := by
    have : maxPermits = 2305843009213693951 := rfl
    omega
  rw [startDispatch, newSemaphore, if_pos hle, Option.map_some]

/-- The limit is zero: the flag is, or there is no flag and the low 32 bits of the value in
the environment are zero. -/
def ZeroLimit (flag : Option UInt32) (env : Option String) : Prop :=
  flag = some 0 ∨ flag = none ∧ ∃ v, envU64 env = some v ∧ 2 ^ 32 ∣ v.toNat

lemma toUInt32_eq_zero_iff (v : UInt64) : v.toUInt32 = 0 ↔ 2 ^ 32 ∣ v.toNat := by
  rw [← UInt32.toNat_inj, UInt64.toNat_toUInt32, UInt32.toNat_zero, Nat.dvd_iff_mod_eq_zero]

lemma toNat_maxConcurrentPairs_ne_zero_iff {flag : Option UInt32} {env : Option String} :
    (maxConcurrentPairs flag env).toNat ≠ 0 ↔ ¬ ZeroLimit flag env := by
  rw [not_iff_not, ← UInt32.toNat_zero, UInt32.toNat_inj, ZeroLimit, maxConcurrentPairs]
  cases flag with
  | some n => simp
  | none =>
      cases henv : envU64 env with
      | none => simp
      | some v => simp [toUInt32_eq_zero_iff]

/-! ### The pass, seen from its semaphore -/

/-- The racks, the permits and the running tasks of a pass. -/
def PassState.slots (s : PassState) : Permits.State (String × List NodeView) Task :=
  ⟨s.racks, s.permits, s.running.map Prod.fst⟩

/-- Patches do not touch the semaphore; the other actions are those of the loop. -/
lemma step_slots {cutoff : String} {o : Outcomes} {s s' : PassState} {a : Action}
    (h : step cutoff o s a = some s') :
    s'.slots = s.slots ∨ ∃ b, Permits.step (taskFor cutoff) s.slots b = some s'.slots := by
  cases a with
  | visit =>
      refine Or.inr ⟨.visit, ?_⟩
      simp only [step] at h
      simp only [Permits.step, PassState.slots]
      cases hracks : s.racks with
      | nil => simp [hracks] at h
      | cons entry racks =>
          rw [hracks] at h
          cases htask : taskFor cutoff entry with
          | none =>
              simp only [htask] at h ⊢
              obtain rfl := Option.some.inj h
              rfl
          | some t =>
              simp only [htask] at h ⊢
              split_ifs at h with hpermits
              obtain rfl := Option.some.inj h
              refine (if_neg hpermits).trans ?_
              rw [List.map_append, List.map_singleton]
  | patch i =>
      left
      simp only [step] at h
      split at h
      · rename_i t r rest hi
        obtain rfl := Option.some.inj h
        obtain ⟨hlt, hget⟩ := List.getElem?_eq_some_iff.mp hi
        have hlt' : i < (s.running.map Prod.fst).length := by rwa [List.length_map]
        have hfst : (s.running.map Prod.fst)[i] = t := by rw [List.getElem_map, hget]
        rw [PassState.slots, PassState.slots, List.map_set, ← hfst, List.set_getElem_self]
      · simp at h
  | finish i =>
      refine Or.inr ⟨.finish i, ?_⟩
      simp only [step] at h
      split at h
      · rename_i t hi
        obtain rfl := Option.some.inj h
        have hlt : i < s.slots.running.length := by
          rw [PassState.slots, List.length_map]
          exact (List.getElem?_eq_some_iff.mp hi).1
        rw [Permits.step, if_pos hlt, PassState.slots, PassState.slots, List.eraseIdx_map]
      · simp at h

/-- A run of the pass is a run of the loop, the patches left out. -/
lemma exists_run_slots {cutoff : String} {o : Outcomes} {as : List Action} {s s' : PassState}
    (h : run cutoff o s as = some s') :
    ∃ bs, Permits.run (taskFor cutoff) s.slots bs = some s'.slots := by
  induction as generalizing s with
  | nil =>
      obtain rfl := Option.some.inj h
      exact ⟨[], rfl⟩
  | cons a as ih =>
      obtain ⟨s₁, hstep, hrest⟩ := Option.bind_eq_some_iff.mp h
      obtain ⟨bs, hbs⟩ := ih hrest
      rcases step_slots hstep with heq | ⟨b, hb⟩
      · exact ⟨bs, heq ▸ hbs⟩
      · exact ⟨b :: bs, by rw [Permits.run, hb]; exact hbs⟩

/-- The permits of a pass, in every state that it reaches. -/
lemma running_add_permits {nodes : List Node} {cutoff : String} {o : Outcomes} {limit : ℕ}
    {as : List Action} {s : PassState} (h : run cutoff o (start nodes limit) as = some s) :
    s.running.length + s.permits = limit := by
  obtain ⟨bs, hbs⟩ := exists_run_slots h
  have hconserved := Permits.add_permits_of_run hbs
  simpa [PassState.slots, start] using hconserved

/-- A rack of a pass that waits for a permit can get one, if there is one at all, or no rack
needs one. -/
lemma wait_ends_of_run {nodes : List Node} {cutoff : String} {o : Outcomes} {limit : ℕ}
    {as : List Action} {s : PassState} (h : run cutoff o (start nodes limit) as = some s)
    (hlimit : limit ≠ 0 ∨ ∀ entry ∈ racksOf nodes, taskFor cutoff entry = none)
    (hwait : s.slots.Waiting (taskFor cutoff)) : s.permits ≠ 0 ∨ s.running ≠ [] := by
  obtain ⟨bs, hbs⟩ := exists_run_slots h
  have hlive := (Permits.live_iff (racksOf nodes) limit).mpr hlimit bs s.slots hbs
  exact (hlive.wait_ends hwait).imp_right fun hne hnil => hne (by rw [PassState.slots, hnil]; rfl)

/-! ### The limits that work -/

/-- **The dispatch loop lives** if and only if there is a permit or nothing to probe: for
every limit that the flag and the environment can give, every list of racks and every
order in which the tasks end, in every state that is reached the permits are complete, a
rack that waits for one can get it, and the pass can be brought to its end. So it is in every
state that a pass over a cluster reaches, with its patches: the permits are always complete,
and in the same cases a rack that waits can get one. -/
theorem dispatch_live_iff (flag : Option UInt32) (env : Option String)
    (racks : List (String × List NodeView)) (cutoff : String) :
    ((∃ s₀, startDispatch flag env racks = some s₀ ∧
      ∀ as s, Permits.run (taskFor cutoff) s₀ as = some s →
        s.Live (taskFor cutoff) (maxConcurrentPairs flag env).toNat) ↔
      ¬ ZeroLimit flag env ∨ ∀ entry ∈ racks, taskFor cutoff entry = none) ∧
    ∀ nodes o as s,
      run cutoff o (start nodes (maxConcurrentPairs flag env).toNat) as = some s →
      s.running.length + s.permits = (maxConcurrentPairs flag env).toNat ∧
      ((¬ ZeroLimit flag env ∨ ∀ entry ∈ racksOf nodes, taskFor cutoff entry = none) →
        s.slots.Waiting (taskFor cutoff) → s.permits ≠ 0 ∨ s.running ≠ []) := by
  rw [← toNat_maxConcurrentPairs_ne_zero_iff]
  refine ⟨?_, fun nodes o as s h => ⟨running_add_permits h, wait_ends_of_run h⟩⟩
  rw [← Permits.live_iff]
  simp only [startDispatch_eq, Option.some.injEq, exists_eq_left']

/-- What the environment says is narrowed to 32 bits: the limit is zero. The loop waits for
a permit with its first rack, none is free, and no task holds one. -/
theorem dispatch_stuck :
    ∃ s₀ s, startDispatch none (some "4294967296") [("r1", [⟨"a", none, none, "r1"⟩])] = some s₀ ∧
      Permits.run (taskFor "2026-05-07T12:00:00Z") s₀ [] = some s ∧
      s.Waiting (taskFor "2026-05-07T12:00:00Z") ∧ ¬ (s.permits ≠ 0 ∨ s.running ≠ []) := by
  have htask : (taskFor "2026-05-07T12:00:00Z" ("r1", [⟨"a", none, none, "r1"⟩])).isSome := by
    decide
  have hzero : (maxConcurrentPairs none (some "4294967296")).toNat = 0 := by decide
  refine ⟨_, _, startDispatch_eq _ _ _, rfl, ⟨_, rfl, htask⟩, ?_⟩
  exact not_or.mpr ⟨not_not.mpr hzero, not_not.mpr rfl⟩

end Accelrd.Prober
