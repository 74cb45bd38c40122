import Mathlib.Tactic
import Accelrd.Library.Retry
import Accelrd.Library.Text
import Accelrd.Probe.Record
import Accelrd.Prober.Orphans

/-!
`run_client` of `src/probe/mod.rs`: the client of a probe tries to connect until a deadline.

The attempts are given by their outputs and by the clock. All times are in nanoseconds.

* `clientLoop`, `runClient`: the code, with fuel for its loop.
* `clientLoop_eq`: the loop makes the attempts of `Retry` and no others, and returns.
* `ClientGuarantee`, `runClient_correct`: how many attempts there are, how long they take, and
  what is reported.
-/

namespace Accelrd.Probe

/-! ### The code -/

/-- `ExitStatus`, with the text it is displayed as. -/
structure ExitStatus where
  success : Bool
  display : String

/-- What a command comes to: it cannot be started, or it ends with an output. -/
inductive Spawned where
  | failed (e : String)
  | finished (status : ExitStatus) (stdout stderr : String)

/-- One attempt: when it begins, its output, and the clock after it. -/
structure Attempt where
  begun : ℕ
  output : Spawned
  now : ℕ

/-- What `run_client` returns, after how many attempts, and the sleeps it asked for. -/
structure ClientRun where
  outcome : Outcome
  attempts : ℕ
  sleeps : List ℕ

/-- A second. -/
def second : ℕ := 1000000000

/-- `connect_failed`. -/
def connectFailed (stdout stderr : String) : Bool :=
  let combined := (stdout ++ "\n" ++ stderr).toList
  Text.contains combined "Couldn't connect to" ||
    Text.contains combined "Unable to init the socket connection" ||
    Text.contains combined "Unable to open file descriptor for socket connection"

/-- The message for an exit without success: its last line, and the status. -/
def exitMessage (status : ExitStatus) (stderr : String) : String :=
  "ib_send_bw exit " ++ status.display ++ ": " ++
    String.ofList ((Text.lines (Text.trim stderr.toList)).getLast?.getD [])

/-- The loop of `run_client`, from attempt `i` on. -/
def clientLoop (attempt : ℕ → Attempt) (deadline : ℕ) : ℕ → ℕ → ℕ → Option ClientRun
  | 0, _, _ => none
  | fuel + 1, i, backoff =>
      match (attempt i).output with
      | .failed e => some ⟨.err ("spawn ib_send_bw: " ++ e), i + 1, []⟩
      | .finished status stdout stderr =>
          if status.success then
            some ⟨outcomeOf stdout, i + 1, []⟩
          else
            let now := (attempt i).now
            if !connectFailed stdout stderr || now ≥ deadline then
              some ⟨.err (exitMessage status stderr), i + 1, []⟩
            else
              let sleepFor := min backoff (deadline - now)
              (clientLoop attempt deadline fuel (i + 1) (min (backoff * 2) (3 * second))).map
                fun run => { run with sleeps := sleepFor :: run.sleeps }

/-- `run_client`, begun at `start`. -/
def runClient (attempt : ℕ → Attempt) (start connectTimeoutSecs fuel : ℕ) : Option ClientRun :=
  clientLoop attempt (start + connectTimeoutSecs * second) fuel 0 (second / 2)

/-! ### The attempts -/

/-- The backoff after an attempt. -/
def backoffAt : ℕ → ℕ
  | 0 => second / 2
  | k + 1 => min (backoffAt k * 2) (3 * second)

example : (List.range 6).map backoffAt
    = [500000000, 1000000000, 2000000000, 3000000000, 3000000000, 3000000000] := by decide

lemma backoffAt_pos (k : ℕ) : 0 < backoffAt k := by
  induction k with
  | zero => decide
  | succ k ih =>
      rw [backoffAt, second]
      omega

/-- What `ib_send_bw` writes when nothing listens on the other side. -/
def connectTexts : List String :=
  ["Couldn't connect to", "Unable to init the socket connection",
    "Unable to open file descriptor for socket connection"]

/-- The attempt exits without success, and one of these texts is in what it wrote. -/
def Spawned.NotConnected : Spawned → Prop
  | .failed _ => False
  | .finished status stdout stderr =>
      ¬ status.success ∧
        ∃ text ∈ connectTexts, text.toList <:+: stdout.toList ∨ text.toList <:+: stderr.toList

instance (s : Spawned) : Decidable s.NotConnected :=
  match s with
  | .failed _ => isFalse id
  | .finished status stdout stderr =>
      inferInstanceAs (Decidable (¬ status.success ∧
        ∃ text ∈ connectTexts, text.toList <:+: stdout.toList ∨ text.toList <:+: stderr.toList))

/-- No text reaches over the end of the line between the two outputs. -/
lemma connectFailed_iff (stdout stderr : String) :
    connectFailed stdout stderr ↔
      ∃ text ∈ connectTexts, text.toList <:+: stdout.toList ∨ text.toList <:+: stderr.toList := by
  have hline : ∀ text ∈ connectTexts, '\n' ∉ text.toList := by decide
  have hcombined : (stdout ++ "\n" ++ stderr).toList = stdout.toList ++ '\n' :: stderr.toList := by
    simp
  have hcontains : connectFailed stdout stderr ↔
      ∃ text ∈ connectTexts, text.toList <:+: stdout.toList ++ '\n' :: stderr.toList := by
    simp only [connectFailed, hcombined, Text.contains, connectTexts, Bool.or_eq_true,
      decide_eq_true_eq, List.mem_cons, List.not_mem_nil, or_false, exists_eq_or_imp,
      exists_eq_left, or_assoc]
  rw [hcontains]
  exact exists_congr fun text => and_congr_right fun htext =>
    Text.infix_append_cons_iff (hline text htext)

/-- What is returned if an attempt is the last. -/
def Spawned.outcome : Spawned → Outcome
  | .failed e => .err ("spawn ib_send_bw: " ++ e)
  | .finished status stdout stderr =>
      if status.success then outcomeOf stdout else .err (exitMessage status stderr)

section Loop

variable (attempt : ℕ → Attempt) (start connectTimeoutSecs : ℕ)

/-- The attempts of a call, as attempts under a deadline. -/
def retries : Retry.Attempts where
  again i := (attempt i).output.NotConnected
  now i := (attempt i).now
  backoff := backoffAt
  deadline := start + connectTimeoutSecs * second

instance (i : ℕ) : Decidable ((retries attempt start connectTimeoutSecs).Continues i) :=
  inferInstanceAs (Decidable ((attempt i).output.NotConnected ∧
    (attempt i).now < start + connectTimeoutSecs * second))

/-- One turn of the loop. -/
lemma clientLoop_succ (fuel i : ℕ) :
    clientLoop attempt (start + connectTimeoutSecs * second) (fuel + 1) i (backoffAt i) =
      if (retries attempt start connectTimeoutSecs).Continues i then
        (clientLoop attempt (start + connectTimeoutSecs * second) fuel (i + 1)
          (backoffAt (i + 1))).map fun run => { run with
            sleeps := (retries attempt start connectTimeoutSecs).pause i :: run.sleeps }
      else some ⟨(attempt i).output.outcome, i + 1, []⟩ := by
  have hiff : (retries attempt start connectTimeoutSecs).Continues i ↔
      (attempt i).output.NotConnected ∧
        (attempt i).now < start + connectTimeoutSecs * second := Iff.rfl
  rw [clientLoop]
  cases hout : (attempt i).output with
  | failed e =>
      rw [if_neg fun hc => by rw [hiff, hout] at hc; exact hc.1]
      rfl
  | finished status stdout stderr =>
      rw [hout] at hiff
      by_cases hsuccess : status.success
      · rw [if_neg fun hc => (hiff.mp hc).1.1 hsuccess]
        simp only [hsuccess, if_true, Spawned.outcome]
      · simp only [hsuccess, Bool.false_eq_true, if_false, Spawned.outcome]
        by_cases hc : (retries attempt start connectTimeoutSecs).Continues i
        · have hlt := (hiff.mp hc).2
          rw [if_pos hc, if_neg (by simp [(connectFailed_iff _ _).mpr (hiff.mp hc).1.2, hlt])]
          rfl
        · rw [if_neg hc, if_pos]
          by_contra hcond
          simp only [Bool.or_eq_true, Bool.not_eq_true', decide_eq_true_eq, not_or,
            Bool.not_eq_false, not_le, ge_iff_le] at hcond
          exact hc (hiff.mpr ⟨⟨hsuccess, (connectFailed_iff _ _).mp hcond.1⟩, hcond.2⟩)

/-- What the loop returns if attempt `m` is the last. -/
def lastRun (i m : ℕ) : ClientRun where
  outcome := (attempt m).output.outcome
  attempts := m + 1
  sleeps := (List.range' i (m - i)).map (retries attempt start connectTimeoutSecs).pause

/-- **The loop makes the attempts up to the last**, given fuel for them. -/
theorem clientLoop_eq {m : ℕ} (hm : ¬ (retries attempt start connectTimeoutSecs).Continues m)
    (fuel i : ℕ) (him : i ≤ m)
    (hi : ∀ j < m, i ≤ j → (retries attempt start connectTimeoutSecs).Continues j) :
    clientLoop attempt (start + connectTimeoutSecs * second) fuel i (backoffAt i) =
      if m < i + fuel then some (lastRun attempt start connectTimeoutSecs i m) else none := by
  induction fuel generalizing i with
  | zero =>
      rw [if_neg (by omega)]
      rfl
  | succ fuel ih =>
      rw [clientLoop_succ]
      rcases Nat.lt_or_eq_of_le him with hlt | rfl
      · rw [if_pos (hi i hlt le_rfl), ih (i + 1) hlt fun j hj hij => hi j hj (by omega),
          Nat.add_right_comm, Nat.add_assoc i]
        by_cases hfuel : m < i + (fuel + 1)
        · have hlen : m - i = m - (i + 1) + 1 := by omega
          rw [if_pos hfuel, if_pos hfuel, Option.map_some, lastRun, lastRun, hlen,
            List.range'_succ, List.map_cons]
        · rw [if_neg hfuel, if_neg hfuel, Option.map_none]
      · rw [if_neg hm, if_pos (by omega), lastRun, Nat.sub_self]
        rfl

end Loop

/-! ### Guarantees -/

/-- The clock of a call: it does not go back, and a sleep takes at least the time it was asked
for. -/
structure ClockLaw (attempt : ℕ → Attempt) (start connectTimeoutSecs : ℕ) : Prop where
  first : start ≤ (attempt 0).begun
  runs : ∀ i, (attempt i).begun ≤ (attempt i).now
  sleeps : ∀ i, (retries attempt start connectTimeoutSecs).Continues i →
    (attempt i).now + (retries attempt start connectTimeoutSecs).pause i ≤ (attempt (i + 1)).begun

/-- A clock on which sleeps take exactly that time, and nothing else but the attempts takes
any. -/
structure ExactSleeps (attempt : ℕ → Attempt) (start connectTimeoutSecs : ℕ) : Prop where
  first : (attempt 0).begun = start
  sleeps : ∀ i, (retries attempt start connectTimeoutSecs).Continues i →
    (attempt (i + 1)).begun = (attempt i).now + (retries attempt start connectTimeoutSecs).pause i

/-- The time that the first backoffs take together. -/
def totalBackoff (k : ℕ) : ℕ := ∑ i ∈ Finset.range k, backoffAt i

/-- What a call of `run_client` guarantees. -/
structure ClientGuarantee (attempt : ℕ → Attempt) (start connectTimeoutSecs : ℕ)
    (run : ClientRun) : Prop where
  attempts_pos : 0 < run.attempts
  /-- Without a timeout there is one attempt. -/
  one_attempt : connectTimeoutSecs = 0 → run.attempts = 1
  few_attempts : 0 < connectTimeoutSecs →
    run.attempts ≤ 2 + sSup {k | totalBackoff k < connectTimeoutSecs * second}
  sleeps_le : run.sleeps.sum ≤ connectTimeoutSecs * second
  /-- It stops at the first output that is not a failure to connect. -/
  stops : ∀ i, ¬ (attempt i).output.NotConnected → run.attempts ≤ i + 1
  /-- It reports the last attempt. -/
  reports : run.outcome = (attempt (run.attempts - 1)).output.outcome
  /-- It gives up on connecting only after the deadline. -/
  gives_up : (attempt (run.attempts - 1)).output.NotConnected →
    start + connectTimeoutSecs * second ≤ (attempt (run.attempts - 1)).now
  /-- If sleeps are exact, each attempt begins in time. -/
  begins : ExactSleeps attempt start connectTimeoutSecs → ∀ i < run.attempts,
    (attempt i).begun ≤ start + connectTimeoutSecs * second
  /-- With the default timeout the prober still waits when the client ends, as far as its type
  can count. -/
  ends : ExactSleeps attempt start connectTimeoutSecs → connectTimeoutSecs = 60 → ∀ d : ℕ,
    (attempt (run.attempts - 1)).now = (attempt (run.attempts - 1)).begun + d * second →
      (attempt (run.attempts - 1)).now ≤ start + (d + 120) * second ∧
      (d + 120 < 2 ^ 64 →
        (attempt (run.attempts - 1)).now ≤ start + Prober.totalTimeoutSecs d * second)

section Guarantee

variable {attempt : ℕ → Attempt} {start connectTimeoutSecs : ℕ}

lemma ClockLaw.timed (h : ClockLaw attempt start connectTimeoutSecs) :
    (retries attempt start connectTimeoutSecs).Timed start where
  first := h.first.trans (h.runs 0)
  next i hi := (h.sleeps i hi).trans (h.runs (i + 1))

lemma sum_sleeps_lastRun (m : ℕ) :
    (lastRun attempt start connectTimeoutSecs 0 m).sleeps.sum =
      ∑ i ∈ Finset.range m, (retries attempt start connectTimeoutSecs).pause i := by
  rw [lastRun, Nat.sub_zero, ← List.range_eq_range', Finset.sum_eq_multiset_sum,
    Finset.range_val, Multiset.range, Multiset.map_coe, Multiset.sum_coe]

/-- With exact sleeps an attempt that is made begins before the deadline. -/
lemma ExactSleeps.begun_le (h : ExactSleeps attempt start connectTimeoutSecs) {i : ℕ}
    (hi : ∀ j < i, (retries attempt start connectTimeoutSecs).Continues j) :
    (attempt i).begun ≤ start + connectTimeoutSecs * second := by
  cases i with
  | zero =>
      rw [h.first]
      omega
  | succ i =>
      have hcont := hi i (by omega)
      rw [h.sleeps i hcont]
      exact Retry.Attempts.add_pause_le hcont

/-- Without a timeout the first attempt is the last. -/
lemma ClockLaw.not_continues (h : ClockLaw attempt start 0) :
    ¬ (retries attempt start 0).Continues 0 := by
  intro hc
  have hlt : (attempt 0).now < start + 0 * second := hc.2
  have hnow := h.timed.first
  rw [Nat.zero_mul, Nat.add_zero] at hlt
  exact absurd hnow (by simpa [retries] using hlt)

/-- The attempts up to the first that is not followed by another are as they should be. -/
lemma clientGuarantee_lastRun (h : ClockLaw attempt start connectTimeoutSecs) {m : ℕ}
    (hm : ¬ (retries attempt start connectTimeoutSecs).Continues m)
    (hbefore : ∀ j < m, (retries attempt start connectTimeoutSecs).Continues j) :
    ClientGuarantee attempt start connectTimeoutSecs
      (lastRun attempt start connectTimeoutSecs 0 m) where
  attempts_pos := Nat.succ_pos m
  one_attempt := by
    rintro rfl
    have hm0 : m = 0 := by
      by_contra hpos
      exact h.not_continues (hbefore 0 (by omega))
    rw [hm0]
    rfl
  few_attempts := by
    intro _
    have hle := h.timed.le_of_continues backoffAt_pos hbefore
    change m ≤ 1 + sSup {j | totalBackoff j < start + connectTimeoutSecs * second - start} at hle
    rw [Nat.add_sub_cancel_left] at hle
    change m + 1 ≤ _
    omega
  sleeps_le := by
    rw [sum_sleeps_lastRun]
    exact (h.timed.sum_pause_le hbefore).trans (Nat.add_sub_cancel_left _ _).le
  stops := by
    intro i hi
    have hle : m ≤ i := by
      by_contra hlt
      exact hi (hbefore i (by omega)).1
    exact Nat.succ_le_succ hle
  reports := rfl
  gives_up := by
    intro hagain
    by_contra hlt
    exact hm ⟨hagain, not_le.mp hlt⟩
  begins := by
    intro hexact i hi
    exact hexact.begun_le fun j hj => hbefore j (by change i < m + 1 at hi; omega)
  ends := by
    intro hexact hsixty d hd
    have hbegun := hexact.begun_le hbefore
    change (attempt m).now = (attempt m).begun + d * second at hd
    change (attempt m).now ≤ start + (d + 120) * second ∧
      (d + 120 < 2 ^ 64 → (attempt m).now ≤ start + Prober.totalTimeoutSecs d * second)
    have hle : (attempt m).now ≤ start + (d + 120) * second := by
      rw [hsixty] at hbegun
      rw [second] at *
      omega
    refine ⟨hle, fun hfits => ?_⟩
    rwa [Prober.totalTimeoutSecs, Nat.mod_eq_of_lt hfits]

/-- **The retry loop of the client**: it returns, after no more attempts and sleeps than the
timeout allows, and what it reports is as the guarantee says. -/
theorem runClient_correct (h : ClockLaw attempt start connectTimeoutSecs) :
    ∃ run : ClientRun,
      (∀ fuel, runClient attempt start connectTimeoutSecs fuel =
        if run.attempts ≤ fuel then some run else none) ∧
      ClientGuarantee attempt start connectTimeoutSecs run := by
  have hstop := h.timed.exists_stop backoffAt_pos
  obtain ⟨m, hm, hbefore⟩ : ∃ m, ¬ (retries attempt start connectTimeoutSecs).Continues m ∧
      ∀ j < m, (retries attempt start connectTimeoutSecs).Continues j :=
    ⟨Nat.find hstop, Nat.find_spec hstop, fun j hj => not_not.mp (Nat.find_min hstop hj)⟩
  refine ⟨lastRun attempt start connectTimeoutSecs 0 m, fun fuel => ?_,
    clientGuarantee_lastRun h hm hbefore⟩
  have hloop := clientLoop_eq attempt start connectTimeoutSecs hm fuel 0 (Nat.zero_le m)
    fun j hj _ => hbefore j hj
  rw [Nat.zero_add] at hloop
  exact hloop

end Guarantee

/-- A server that listens after eight seconds; each attempt takes a second, and one is made
every four seconds. -/
def lateServer (i : ℕ) : Attempt where
  begun := 4 * second * i
  output :=
    if i < 2 then .finished ⟨false, "exit status: 1"⟩ "" "Couldn't connect to 10.0.0.1:18515\n"
    else .finished ⟨true, "exit status: 0"⟩ Perftest.sampleOutput ""
  now := 4 * second * i + second

lemma backoffAt_le (k : ℕ) : backoffAt k ≤ 3 * second := by
  cases k with
  | zero => decide
  | succ k => exact min_le_right _ _

lemma clockLaw_lateServer : ClockLaw lateServer 0 60 where
  first := le_rfl
  runs _ := Nat.le_add_right _ _
  sleeps i _ := by
    have hpause : (retries lateServer 0 60).pause i ≤ 3 * second :=
      (min_le_left _ _).trans (backoffAt_le i)
    change 4 * second * i + second + (retries lateServer 0 60).pause i ≤ 4 * second * (i + 1)
    rw [Nat.mul_succ]
    omega

/-- The third attempt is the last, and its row is reported. -/
theorem runClient_lateServer :
    ∃ run, runClient lateServer 0 60 3 = some run ∧ run.attempts = 3 ∧
      run.outcome = .ok Perftest.sampleSummary := by
  obtain ⟨run, hrun, hguarantee⟩ := runClient_correct clockLaw_lateServer
  have hle : run.attempts ≤ 3 := hguarantee.stops 2 (by decide)
  have hthree : run.attempts = 3 := by
    by_contra hne
    have hpos := hguarantee.attempts_pos
    -- the first two attempts fail to connect long before the deadline
    have hearly : ∀ i < 2, (lateServer i).output.NotConnected ∧
        (lateServer i).now < 0 + 60 * second := by decide
    obtain ⟨hfailed, hlt⟩ := hearly (run.attempts - 1) (by omega)
    exact absurd (hguarantee.gives_up hfailed) (not_le.mpr hlt)
  refine ⟨run, (hrun 3).trans (if_pos hle), hthree, ?_⟩
  have hrow : Perftest.parse Perftest.sampleOutput = some Perftest.sampleSummary := by
    decide +kernel
  rw [hguarantee.reports, hthree, lateServer]
  dsimp only
  rw [if_neg (by decide), Spawned.outcome, if_pos rfl, outcomeOf, hrow]

end Accelrd.Probe
