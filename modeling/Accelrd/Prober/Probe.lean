import Mathlib.Tactic
import Accelrd.Prober.Orphans
import Accelrd.Prober.Pair
import Accelrd.Prober.Pods

/-!
`src/prober/reconcile.rs`, `probe_pair` and `probe_loopback`: one probe from its first
pod to its last delete, over every sequence of answers of the API server.

* `probe`, `probePair`, `probeLoopback`: the code. The two functions of the source are
  the same but for the nodes, the metric and the patch.
* `Judged`: what is true of the events of a probe that reaches a verdict: every pod
  created is deleted once, the verdict is counted once and written once, and it is
  the verdict that the events call for.
* `judged_probe`: every probe is judged, along every path. `probes_leave_nothing` reads
  this off for the two functions.
* `GoodAnswers`, `sawOk_probe_iff`: the answers for which the verdict is ok.
-/

namespace Accelrd.Prober

open Kube

/-! ### The code -/

/-- What the environment answers during one probe: the configured image, which pod
templates deserialize, the answers to the two create requests, to the polls of the
two waits before their deadlines, and to the request for the logs, and which lines
deserialize as records. The deadlines, in whole seconds of the monotonic clock, are ones that
it can show; `Instant::now() + timeout` has no value beyond them. -/
structure Answers where
  probeImage : Option String
  fromValue : PodSpec → Bool
  serverCreated : Option CreatedPod
  serverPolls : List PodGet
  clientCreated : Option CreatedPod
  clientPolls : List PodGet
  logs : Option String
  fromStr : String → Option ProbeRecord
  clock : ℕ
  testDurationSecs : ℕ
  server_deadline : clock + podIpTimeoutSecs < 2 ^ 63
  client_deadline : clock + podIpTimeoutSecs + totalTimeoutSecs testDurationSecs < 2 ^ 63

/-- Where `probe_pair` and `probe_loopback` differ: the nodes of the two pods, the rack,
the attempts counter, and the patches for a verdict. -/
structure Target where
  serverNode : String
  clientNode : String
  rack : String
  metric : String
  patches : Verdict → List (String × MetaPatch)

/-- Count the verdict, then write it. -/
def Target.judge (t : Target) (v : Verdict) : List Event :=
  .attempt t.metric t.rack v.label :: (t.patches v).map fun r => .patch r.1 r.2

/-- The verdict on a client pod that ended with the given phase, and the logs read for it. -/
def verdictOf (env : Answers) : Phase → Verdict × List Event
  | .succeeded =>
      (match readRecord env.fromStr env.logs with
        | .ok rec => if rec.ok then .ok rec else .fail (rec.message.getD "probe ok=false")
        | .error e => .fail ("read client pod: " ++ e), [.logs env.logs])
  | .failed => (.fail "client pod phase Failed", [])
  | .timeout => (.timeout, [])

/-- The probe from the creation of the client pod on; the server pod `server` is there. -/
def probeClient (t : Target) (env : Answers) (server : String) (spec : PodSpec) : List Event :=
  match env.clientCreated with
  | none =>
      .create spec none :: .delete server ::
        t.judge (.fail ("create client pod: " ++ "create probe pod"))
  | some pod =>
      let client := pod.podName
      let (phase, polls) := awaitTerminal client env.clientPolls
      .create spec (some pod) :: (polls ++
        match phase with
        | .error e =>
            .delete server :: .delete client :: t.judge (.fail ("watch client pod: " ++ e))
        | .ok phase =>
            let (verdict, logs) := verdictOf env phase
            logs ++ (t.judge verdict ++ [.delete client, .delete server]))

/-- The probe from the creation of the server pod on. -/
def probeServer (t : Target) (env : Answers) (spec : PodSpec) : List Event :=
  match env.serverCreated with
  | none => .create spec none :: t.judge (.fail ("create server pod: " ++ "create probe pod"))
  | some pod =>
      let server := pod.podName
      let (ip, polls) := awaitPodIp server env.serverPolls
      .create spec (some pod) :: (polls ++
        match ip with
        | .error e => .delete server :: t.judge (.fail ("server pod IP: " ++ e))
        | .ok ip =>
            let spec : PodSpec := ⟨.client, t.clientNode, t.serverNode, some ip, t.rack⟩
            match buildPod env.probeImage env.fromValue spec with
            | .error e => .delete server :: t.judge (.fail ("build client pod: " ++ e))
            | .ok () => probeClient t env server spec)

/-- The common body of `probe_pair` and `probe_loopback`. -/
def probe (t : Target) (env : Answers) : List Event :=
  let spec : PodSpec := ⟨.server, t.serverNode, t.clientNode, none, t.rack⟩
  match buildPod env.probeImage env.fromValue spec with
  | .error e => t.judge (.fail ("build server pod: " ++ e))
  | .ok () => probeServer t env spec

/-- The name of a pod that a create request made. -/
def Event.created : Event → Option String
  | .create _ answer => answer.map CreatedPod.podName
  | _ => none

/-- The pod that a delete request names. -/
def Event.deleted : Event → Option String
  | .delete name => some name
  | _ => none

/-- The labels of an attempt. -/
def Event.attempted : Event → Option (String × String × String)
  | .attempt metric rack verdict => some (metric, rack, verdict)
  | _ => none

/-- The node and the body of a patch. -/
def Event.patched : Event → Option (String × MetaPatch)
  | .patch node body => some (node, body)
  | _ => none

/-- The client pod was seen in phase `Succeeded`, and its logs held a record that is ok. -/
def SawOk (fromStr : String → Option ProbeRecord) (events : List Event) : Prop :=
  (∃ status, .get .client (.found status) ∈ events ∧ phaseOf status = "Succeeded") ∧
    ∃ logs rec, .logs logs ∈ events ∧ readRecord fromStr logs = .ok rec ∧ rec.ok

/-- What is true of the events of a probe that reached the verdict `v`, when it still owes
the deletion of the pods `owed`. -/
structure Judged (t : Target) (fromStr : String → Option ProbeRecord) (owed : List String)
    (events : List Event) (v : Verdict) : Prop where
  deleted : (events.filterMap Event.deleted).Perm (owed ++ events.filterMap Event.created)
  attempted : events.filterMap Event.attempted = [(t.metric, t.rack, v.label)]
  patched : events.filterMap Event.patched = t.patches v
  ok_iff : v.label = "ok" ↔ SawOk fromStr events
  timeout_iff : v.label = "timeout" ↔ .expired .client ∈ events

/-! ### The waits -/

/-- What a wait does. -/
def Event.IsPoll : Event → Prop
  | .get _ _ => True
  | .expired _ => True
  | _ => False

/-- The wait for the IP speaks about the server pod only. -/
lemma awaitPodIp_events (name : String) (answers : List PodGet) :
    ∀ e ∈ (awaitPodIp name answers).2, e.IsPoll ∧
      (∀ answer, e ≠ .get .client answer) ∧ e ≠ .expired .client := by
  induction answers with
  | nil => simp [awaitPodIp, Event.IsPoll]
  | cons answer answers ih =>
      have hhead (answer : PodGet) : (Event.get .server answer).IsPoll ∧
          (∀ answer', Event.get .server answer ≠ .get .client answer') ∧
            Event.get .server answer ≠ .expired .client := by simp [Event.IsPoll]
      cases answer with
      | notFound => simpa [awaitPodIp] using hhead .notFound
      | transient => exact List.forall_mem_cons.mpr ⟨hhead _, ih⟩
      | found status =>
          unfold awaitPodIp
          simp only
          split_ifs
          · simpa using hhead (.found status)
          · simpa using hhead (.found status)
          · exact List.forall_mem_cons.mpr ⟨hhead _, ih⟩

/-- How the wait for the client ended is what its events say. -/
structure WaitSpec (result : Except String Phase) (events : List Event) : Prop where
  polls : ∀ e ∈ events, e.IsPoll
  succeeded : (∃ status, .get .client (.found status) ∈ events ∧ phaseOf status = "Succeeded") ↔
    result = .ok .succeeded
  expired : .expired .client ∈ events ↔ result = .ok .timeout

/-- A poll that does not end the wait. -/
lemma WaitSpec.cons {result : Except String Phase} {events : List Event} {answer : PodGet}
    (h : WaitSpec result events)
    (hanswer : ∀ status, answer = .found status → phaseOf status ≠ "Succeeded") :
    WaitSpec result (.get .client answer :: events) where
  polls := List.forall_mem_cons.mpr ⟨trivial, h.polls⟩
  succeeded := by
    rw [← h.succeeded]
    constructor
    · rintro ⟨status, hmem, hs⟩
      rcases List.mem_cons.mp hmem with heq | hmem
      · exact absurd hs (hanswer status (Event.get.inj heq).2.symm)
      · exact ⟨status, hmem, hs⟩
    · rintro ⟨status, hmem, hs⟩
      exact ⟨status, List.mem_cons_of_mem _ hmem, hs⟩
  expired := by
    rw [← h.expired]
    simp

lemma awaitTerminal_spec (name : String) (answers : List PodGet) :
    WaitSpec (awaitTerminal name answers).1 (awaitTerminal name answers).2 := by
  have hend {result : Except String Phase} (h : result ≠ .ok .succeeded ∧ result ≠ .ok .timeout) :
      WaitSpec result [] := ⟨by simp, by simpa using h.1, by simpa using h.2⟩
  induction answers with
  | nil =>
      exact ⟨by simp [awaitTerminal, Event.IsPoll], by simp [awaitTerminal],
        by simp [awaitTerminal]⟩
  | cons answer answers ih =>
      cases answer with
      | notFound => exact (hend ⟨by simp [awaitTerminal], by simp [awaitTerminal]⟩).cons (by simp)
      | transient => exact ih.cons (by simp)
      | found status =>
          unfold awaitTerminal
          simp only
          split_ifs with hs hf
          · exact ⟨by simp [Event.IsPoll], iff_of_true ⟨status, by simp, hs⟩ rfl, by simp⟩
          · exact (hend (by simp)).cons fun status' heq => by
              rw [← PodGet.found.inj heq]
              exact hs
          · exact ih.cons fun status' heq => by
              rw [← PodGet.found.inj heq]
              exact hs

/-! ### Every path is judged -/

lemma filterMap_eq_nil_of_isPoll {β : Type} {f : Event → Option β}
    (hf : ∀ e : Event, e.IsPoll → f e = none) {pre : List Event} (h : ∀ e ∈ pre, e.IsPoll) :
    pre.filterMap f = [] := List.filterMap_eq_nil_iff.mpr fun e he => hf e (h e he)

lemma Event.IsPoll.silent {e : Event} (h : e.IsPoll) :
    e.deleted = none ∧ e.created = none ∧ e.attempted = none ∧ e.patched = none := by
  cases e <;> first | exact h.elim | exact ⟨rfl, rfl, rfl, rfl⟩

/-- Polls in front that do not see the client succeed do not matter. -/
lemma sawOk_append_polls {f : String → Option ProbeRecord} {pre events : List Event}
    (hpoll : ∀ e ∈ pre, e.IsPoll)
    (hsucceeded : ¬ ∃ status, .get .client (.found status) ∈ pre ∧ phaseOf status = "Succeeded") :
    SawOk f (pre ++ events) ↔ SawOk f events := by
  have hlogs (logs : Option String) : Event.logs logs ∉ pre := fun hmem => hpoll _ hmem
  rw [SawOk, SawOk]
  simp only [List.mem_append, hlogs, false_or]
  refine and_congr_left fun _ => ⟨?_, fun ⟨status, hmem, hs⟩ => ⟨status, Or.inr hmem, hs⟩⟩
  rintro ⟨status, hmem | hmem, hs⟩
  · exact absurd ⟨status, hmem, hs⟩ hsucceeded
  · exact ⟨status, hmem, hs⟩

/-- Polls in front that do not decide about the client change nothing. -/
lemma Judged.append_polls {t : Target} {f : String → Option ProbeRecord} {owed : List String}
    {pre events : List Event} {v : Verdict} (h : Judged t f owed events v)
    (hpoll : ∀ e ∈ pre, e.IsPoll)
    (hsucceeded : ¬ ∃ status, .get .client (.found status) ∈ pre ∧ phaseOf status = "Succeeded")
    (hexpired : .expired .client ∉ pre) : Judged t f owed (pre ++ events) v where
  deleted := by
    rw [List.filterMap_append, List.filterMap_append,
      filterMap_eq_nil_of_isPoll (fun e he => he.silent.1) hpoll,
      filterMap_eq_nil_of_isPoll (fun e he => he.silent.2.1) hpoll]
    exact h.deleted
  attempted := by
    rw [List.filterMap_append, filterMap_eq_nil_of_isPoll (fun e he => he.silent.2.2.1) hpoll]
    exact h.attempted
  patched := by
    rw [List.filterMap_append, filterMap_eq_nil_of_isPoll (fun e he => he.silent.2.2.2) hpoll]
    exact h.patched
  ok_iff := h.ok_iff.trans (sawOk_append_polls hpoll hsucceeded).symm
  timeout_iff := by
    rw [h.timeout_iff, List.mem_append]
    exact ⟨Or.inr, fun hor => hor.resolve_left hexpired⟩

lemma Judged.perm {t : Target} {f : String → Option ProbeRecord} {owed owed' : List String}
    {events : List Event} {v : Verdict} (h : Judged t f owed events v) (hp : owed.Perm owed') :
    Judged t f owed' events v where
  deleted := h.deleted.trans (hp.append_right _)
  attempted := h.attempted
  patched := h.patched
  ok_iff := h.ok_iff
  timeout_iff := h.timeout_iff

/-- One event that says nothing about the client, in front. -/
lemma sawOk_cons {f : String → Option ProbeRecord} {e : Event} {events : List Event}
    (hget : ∀ answer, e ≠ .get .client answer) (hlogs : ∀ logs, e ≠ .logs logs) :
    SawOk f (e :: events) ↔ SawOk f events := by
  simp only [SawOk, List.mem_cons]
  grind

/-- A pod that was created is owed. -/
lemma Judged.create_some {t : Target} {f : String → Option ProbeRecord} {owed : List String}
    {events : List Event} {v : Verdict} (spec : PodSpec) {pod : CreatedPod}
    (h : Judged t f (pod.podName :: owed) events v) :
    Judged t f owed (.create spec (some pod) :: events) v where
  deleted := h.deleted.trans List.perm_middle.symm
  attempted := h.attempted
  patched := h.patched
  ok_iff := h.ok_iff.trans (sawOk_cons (by simp) (by simp)).symm
  timeout_iff := h.timeout_iff.trans (by simp)

lemma Judged.create_none {t : Target} {f : String → Option ProbeRecord} {owed : List String}
    {events : List Event} {v : Verdict} (spec : PodSpec) (h : Judged t f owed events v) :
    Judged t f owed (.create spec none :: events) v where
  deleted := h.deleted
  attempted := h.attempted
  patched := h.patched
  ok_iff := h.ok_iff.trans (sawOk_cons (by simp) (by simp)).symm
  timeout_iff := h.timeout_iff.trans (by simp)

/-- A pod that is deleted is not owed any more. -/
lemma Judged.delete {t : Target} {f : String → Option ProbeRecord} {owed : List String}
    {events : List Event} {v : Verdict} (name : String) (h : Judged t f owed events v) :
    Judged t f (name :: owed) (.delete name :: events) v where
  deleted := h.deleted.cons name
  attempted := h.attempted
  patched := h.patched
  ok_iff := h.ok_iff.trans (sawOk_cons (by simp) (by simp)).symm
  timeout_iff := h.timeout_iff.trans (by simp)

/-- What counting and writing a verdict consists of. -/
lemma filterMap_judge (t : Target) (v : Verdict) :
    (t.judge v).filterMap Event.deleted = [] ∧ (t.judge v).filterMap Event.created = [] ∧
      (t.judge v).filterMap Event.attempted = [(t.metric, t.rack, v.label)] ∧
      (t.judge v).filterMap Event.patched = t.patches v := by
  have hmap {β : Type} {g : Event → Option β} (hg : ∀ node body, g (.patch node body) = none) :
      ((t.patches v).map fun r => Event.patch r.1 r.2).filterMap g = [] := by
    rw [List.filterMap_map]
    exact List.filterMap_eq_nil_iff.mpr fun r _ => hg r.1 r.2
  refine ⟨hmap fun _ _ => rfl, hmap fun _ _ => rfl, congrArg _ (hmap fun _ _ => rfl), ?_⟩
  change ((t.patches v).map fun r => Event.patch r.1 r.2).filterMap Event.patched = t.patches v
  rw [List.filterMap_map]
  exact (List.filterMap_congr fun r _ => rfl).trans List.filterMap_some

lemma notMem_judge {t : Target} {v : Verdict} {e : Event} (hattempt : e.attempted = none)
    (hpatch : e.patched = none) : e ∉ t.judge v := by
  intro he
  rcases List.mem_cons.mp he with rfl | he
  · simp [Event.attempted] at hattempt
  · obtain ⟨r, -, rfl⟩ := List.mem_map.mp he
    simp [Event.patched] at hpatch

/-- Counting and writing a verdict is not seeing the client succeed. -/
lemma not_sawOk_judge (t : Target) (f : String → Option ProbeRecord) (v : Verdict) :
    ¬ SawOk f (t.judge v) := by
  rintro ⟨⟨status, hmem, -⟩, -⟩
  exact notMem_judge rfl rfl hmem

/-- Giving up with a failure, nothing owed. -/
lemma judged_fail (t : Target) (f : String → Option ProbeRecord) (reason : String) :
    Judged t f [] (t.judge (.fail reason)) (.fail reason) := by
  obtain ⟨hdeleted, hcreated, hattempted, hpatched⟩ := filterMap_judge t (.fail reason)
  exact ⟨by rw [hdeleted, hcreated]; rfl, hattempted, hpatched,
    iff_of_false (by simp [Verdict.label]) (not_sawOk_judge t f _),
    iff_of_false (by simp [Verdict.label]) (notMem_judge rfl rfl)⟩

/-- What the end of a probe adds to the polls of the client. -/
lemma mem_tail {t : Target} {env : Answers} {v : Verdict} {phase : Phase} {client server : String}
    {polls : List Event} {e : Event} (hattempt : e.attempted = none) (hpatch : e.patched = none)
    (hdelete : e.deleted = none) :
    e ∈ polls ++ ((verdictOf env phase).2 ++ (t.judge v ++ [.delete client, .delete server])) ↔
      e ∈ polls ∨ e ∈ (verdictOf env phase).2 := by
  have hjudge : e ∉ t.judge v := notMem_judge hattempt hpatch
  have hdel : e ∉ [Event.delete client, .delete server] := by
    intro he
    simp only [List.mem_cons, List.not_mem_nil, or_false] at he
    rcases he with rfl | rfl <;> simp [Event.deleted] at hdelete
  simp only [List.mem_append, hjudge, hdel, or_false]

/-- The verdict is the one the events call for. -/
lemma label_eq_ok_iff (env : Answers) (phase : Phase) :
    (verdictOf env phase).1.label = "ok" ↔
      phase = .succeeded ∧ ∃ rec, readRecord env.fromStr env.logs = .ok rec ∧ rec.ok := by
  cases phase with
  | succeeded =>
      simp only [verdictOf, true_and]
      cases h : readRecord env.fromStr env.logs with
      | error e => simp [Verdict.label]
      | ok rec =>
          by_cases hok : rec.ok
          · simp [hok, Verdict.label]
          · simp [hok, Verdict.label]
  | failed => simp [verdictOf, Verdict.label]
  | timeout => simp [verdictOf, Verdict.label]

lemma label_eq_timeout_iff (env : Answers) (phase : Phase) :
    (verdictOf env phase).1.label = "timeout" ↔ phase = .timeout := by
  cases phase with
  | succeeded =>
      simp only [verdictOf, reduceCtorEq, iff_false]
      cases readRecord env.fromStr env.logs with
      | error e => simp [Verdict.label]
      | ok rec => by_cases hok : rec.ok <;> simp [hok, Verdict.label]
  | failed => simp [verdictOf, Verdict.label]
  | timeout => simp [verdictOf, Verdict.label]

/-- The logs are read exactly after a client that succeeded. -/
lemma mem_verdictOf {env : Answers} {phase : Phase} {e : Event} :
    e ∈ (verdictOf env phase).2 ↔ phase = .succeeded ∧ e = .logs env.logs := by
  cases phase <;> simp [verdictOf]

/-- A client whose wait came to an end. -/
lemma judged_terminal (t : Target) (env : Answers) (client server : String) {phase : Phase}
    {polls : List Event} (hw : WaitSpec (.ok phase) polls) :
    Judged t env.fromStr [client, server] (polls ++ ((verdictOf env phase).2 ++
      (t.judge (verdictOf env phase).1 ++ [.delete client, .delete server])))
      (verdictOf env phase).1 := by
  obtain ⟨hdeleted, hcreated, hattempted, hpatched⟩ := filterMap_judge t (verdictOf env phase).1
  have hlogs {β : Type} {g : Event → Option β} (hg : ∀ logs, g (.logs logs) = none) :
      (verdictOf env phase).2.filterMap g = [] :=
    List.filterMap_eq_nil_iff.mpr fun e he => (mem_verdictOf.mp he).2 ▸ hg _
  have hpolls {β : Type} {g : Event → Option β} (hg : ∀ e : Event, e.IsPoll → g e = none) :
      polls.filterMap g = [] := filterMap_eq_nil_of_isPoll hg hw.polls
  refine ⟨?_, ?_, ?_, ?_, ?_⟩
  · rw [List.filterMap_append, List.filterMap_append, List.filterMap_append, List.filterMap_append,
      List.filterMap_append, List.filterMap_append, hdeleted, hcreated,
      hpolls fun e he => he.silent.1, hpolls fun e he => he.silent.2.1,
      hlogs (g := Event.deleted) fun _ => rfl, hlogs (g := Event.created) fun _ => rfl]
    exact .refl _
  · rw [List.filterMap_append, List.filterMap_append, List.filterMap_append, hattempted,
      hpolls fun e he => he.silent.2.2.1, hlogs (g := Event.attempted) fun _ => rfl]
    rfl
  · rw [List.filterMap_append, List.filterMap_append, List.filterMap_append, hpatched,
      hpolls fun e he => he.silent.2.2.2, hlogs (g := Event.patched) fun _ => rfl]
    exact List.append_nil _
  · rw [label_eq_ok_iff, SawOk]
    have hget (status : Option PodStatus) : Event.get .client (.found status) ∈ polls ++
        ((verdictOf env phase).2 ++ (t.judge (verdictOf env phase).1 ++
          [.delete client, .delete server])) ↔ .get .client (.found status) ∈ polls := by
      rw [mem_tail rfl rfl rfl, mem_verdictOf]
      simp
    have hlog (logs : Option String) : Event.logs logs ∈ polls ++
        ((verdictOf env phase).2 ++ (t.judge (verdictOf env phase).1 ++
          [.delete client, .delete server])) ↔ phase = .succeeded ∧ logs = env.logs := by
      rw [mem_tail rfl rfl rfl, mem_verdictOf]
      have hnot : Event.logs logs ∉ polls := fun h => hw.polls _ h
      simp [hnot]
    simp only [hget, hlog, hw.succeeded, Except.ok.injEq]
    constructor
    · rintro ⟨rfl, rec, hrec, hok⟩
      exact ⟨rfl, env.logs, rec, ⟨rfl, rfl⟩, hrec, hok⟩
    · rintro ⟨rfl, logs, rec, ⟨-, rfl⟩, hrec, hok⟩
      exact ⟨rfl, rec, hrec, hok⟩
  · rw [label_eq_timeout_iff, mem_tail rfl rfl rfl, mem_verdictOf, hw.expired, Except.ok.injEq]
    simp

/-- From the creation of the client pod on, with the server pod owed. -/
lemma judged_probeClient (t : Target) (env : Answers) (server : String) (spec : PodSpec) :
    ∃ v, Judged t env.fromStr [server] (probeClient t env server spec) v := by
  unfold probeClient
  cases env.clientCreated with
  | none => exact ⟨_, .create_none spec (.delete server (judged_fail t env.fromStr _))⟩
  | some pod =>
      have hw := awaitTerminal_spec pod.podName env.clientPolls
      revert hw
      simp only
      generalize awaitTerminal pod.podName env.clientPolls = wait
      obtain ⟨result, polls⟩ := wait
      intro hw
      cases result with
      | ok phase => exact ⟨_, .create_some spec (judged_terminal t env pod.podName server hw)⟩
      | error e =>
          have hfail := judged_fail t env.fromStr ("watch client pod: " ++ e)
          have hdeletes := ((hfail.delete pod.podName).delete server).perm (List.Perm.swap _ _ _)
          exact ⟨_, .create_some spec (hdeletes.append_polls hw.polls
            (by rw [hw.succeeded]; simp) (by rw [hw.expired]; simp))⟩

/-- From the creation of the server pod on. -/
lemma judged_probeServer (t : Target) (env : Answers) (spec : PodSpec) :
    ∃ v, Judged t env.fromStr [] (probeServer t env spec) v := by
  unfold probeServer
  cases env.serverCreated with
  | none => exact ⟨_, .create_none spec (judged_fail t env.fromStr _)⟩
  | some pod =>
      have hw := awaitPodIp_events pod.podName env.serverPolls
      revert hw
      simp only
      generalize awaitPodIp pod.podName env.serverPolls = wait
      obtain ⟨result, polls⟩ := wait
      intro hw
      -- whatever follows the wait, with the server pod owed
      have hwait {events : List Event} (h : ∃ v, Judged t env.fromStr [pod.podName] events v) :
          ∃ v, Judged t env.fromStr [] (.create spec (some pod) :: (polls ++ events)) v := by
        obtain ⟨v, h⟩ := h
        refine ⟨v, .create_some spec (h.append_polls (fun e he => (hw e he).1) ?_ ?_)⟩
        · rintro ⟨status, hmem, -⟩
          exact (hw _ hmem).2.1 _ rfl
        · exact fun hmem => (hw _ hmem).2.2 rfl
      cases result with
      | error e => exact hwait ⟨_, .delete pod.podName (judged_fail t env.fromStr _)⟩
      | ok ip =>
          simp only
          cases buildPod env.probeImage env.fromValue
              ⟨.client, t.clientNode, t.serverNode, some ip, t.rack⟩ with
          | error e => exact hwait ⟨_, .delete pod.podName (judged_fail t env.fromStr _)⟩
          | ok _ => exact hwait (judged_probeClient t env pod.podName _)

/-- **Every probe is judged**, along every path through it. -/
theorem judged_probe (t : Target) (env : Answers) :
    ∃ v, Judged t env.fromStr [] (probe t env) v := by
  unfold probe
  simp only
  cases buildPod env.probeImage env.fromValue
      ⟨.server, t.serverNode, t.clientNode, none, t.rack⟩ with
  | error e => exact ⟨_, judged_fail t env.fromStr _⟩
  | ok _ => exact judged_probeServer t env _

/-! ### Good answers -/

/-- A poll after which the wait for the IP goes on. -/
def PodGet.NoIpYet : PodGet → Prop
  | .found status =>
      podIpOf status = "" ∧ phaseOf status ≠ "Failed" ∧ phaseOf status ≠ "Succeeded"
  | .notFound => False
  | .transient => True

/-- A poll after which the wait for the client goes on. -/
def PodGet.Running : PodGet → Prop
  | .found status => phaseOf status ≠ "Succeeded" ∧ phaseOf status ≠ "Failed"
  | .notFound => False
  | .transient => True

/-- The pod is there, with an IP, before anything ends the wait. -/
def GetsIp (polls : List PodGet) (ip : String) : Prop :=
  ip ≠ "" ∧ ∃ before status rest, polls = before ++ .found status :: rest ∧
    (∀ answer ∈ before, answer.NoIpYet) ∧ podIpOf status = ip

/-- The pod succeeds before anything else ends the wait. -/
def Succeeds (polls : List PodGet) : Prop :=
  ∃ before status rest, polls = before ++ .found status :: rest ∧
    (∀ answer ∈ before, answer.Running) ∧ phaseOf status = "Succeeded"

lemma getsIp_nil (ip : String) : ¬ GetsIp [] ip := by
  rintro ⟨-, before, status, rest, heq, -⟩
  simp at heq

lemma getsIp_cons {answer : PodGet} {answers : List PodGet} {ip : String} :
    GetsIp (answer :: answers) ip ↔
      (∃ status, answer = .found status ∧ podIpOf status = ip ∧ ip ≠ "") ∨
        answer.NoIpYet ∧ GetsIp answers ip := by
  constructor
  · rintro ⟨hne, before, status, rest, heq, hbefore, hip⟩
    cases before with
    | nil =>
        obtain ⟨rfl, -⟩ := List.cons_eq_cons.mp heq
        exact Or.inl ⟨status, rfl, hip, hne⟩
    | cons a before =>
        obtain ⟨rfl, rfl⟩ := List.cons_eq_cons.mp heq
        obtain ⟨ha, hbefore⟩ := List.forall_mem_cons.mp hbefore
        exact Or.inr ⟨ha, hne, before, status, rest, rfl, hbefore, hip⟩
  · rintro (⟨status, rfl, hip, hne⟩ | ⟨ha, hne, before, status, rest, rfl, hbefore, hip⟩)
    · exact ⟨hne, [], status, answers, rfl, List.forall_mem_nil _, hip⟩
    · exact ⟨hne, answer :: before, status, rest, rfl, List.forall_mem_cons.mpr ⟨ha, hbefore⟩, hip⟩

lemma succeeds_nil : ¬ Succeeds [] := by
  rintro ⟨before, status, rest, heq, -⟩
  simp at heq

lemma succeeds_cons {answer : PodGet} {answers : List PodGet} :
    Succeeds (answer :: answers) ↔
      (∃ status, answer = .found status ∧ phaseOf status = "Succeeded") ∨
        answer.Running ∧ Succeeds answers := by
  constructor
  · rintro ⟨before, status, rest, heq, hbefore, hphase⟩
    cases before with
    | nil =>
        obtain ⟨rfl, -⟩ := List.cons_eq_cons.mp heq
        exact Or.inl ⟨status, rfl, hphase⟩
    | cons a before =>
        obtain ⟨rfl, rfl⟩ := List.cons_eq_cons.mp heq
        obtain ⟨ha, hbefore⟩ := List.forall_mem_cons.mp hbefore
        exact Or.inr ⟨ha, before, status, rest, rfl, hbefore, hphase⟩
  · rintro (⟨status, rfl, hphase⟩ | ⟨ha, before, status, rest, rfl, hbefore, hphase⟩)
    · exact ⟨[], status, answers, rfl, List.forall_mem_nil _, hphase⟩
    · exact ⟨answer :: before, status, rest, rfl, List.forall_mem_cons.mpr ⟨ha, hbefore⟩, hphase⟩

/-- The wait for the IP finds it if the answers have it in time. -/
lemma awaitPodIp_eq_ok_iff (name : String) (answers : List PodGet) (ip : String) :
    (awaitPodIp name answers).1 = .ok ip ↔ GetsIp answers ip := by
  induction answers with
  | nil => simp [awaitPodIp, getsIp_nil]
  | cons answer answers ih =>
      rw [getsIp_cons]
      unfold awaitPodIp
      cases answer with
      | notFound => simp [PodGet.NoIpYet]
      | transient => simpa [PodGet.NoIpYet] using ih
      | found status =>
          simp only [PodGet.found.injEq, exists_eq_left', PodGet.NoIpYet]
          split_ifs with hip hend
          · simp only [hip, false_and, or_false, Except.ok.injEq]
            exact ⟨fun h => ⟨h, h ▸ hip⟩, And.left⟩
          · simp only [false_iff, not_or, not_and]
            exact ⟨fun h hne => hne (h ▸ not_not.mp hip), by tauto⟩
          · have hempty : podIpOf status = "" := not_not.mp hip
            have hne : ¬ (podIpOf status = ip ∧ ip ≠ "") := fun h => h.2 (h.1 ▸ hempty)
            rw [ih, or_iff_right hne]
            tauto

/-- The wait for the client sees it succeed if the answers have it in time. -/
lemma awaitTerminal_eq_succeeded_iff (name : String) (answers : List PodGet) :
    (awaitTerminal name answers).1 = .ok .succeeded ↔ Succeeds answers := by
  induction answers with
  | nil => simp [awaitTerminal, succeeds_nil]
  | cons answer answers ih =>
      rw [succeeds_cons]
      unfold awaitTerminal
      cases answer with
      | notFound => simp [PodGet.Running]
      | transient => simpa [PodGet.Running] using ih
      | found status =>
          simp only [PodGet.found.injEq, exists_eq_left', PodGet.Running]
          split_ifs with hs hf
          · simp [hs]
          · simp [hf]
          · simpa [hs, hf] using ih

lemma buildPod_eq_ok_iff {image : Option String} {fromValue : PodSpec → Bool} {spec : PodSpec} :
    buildPod image fromValue spec = .ok () ↔ image.isSome ∧ fromValue spec := by
  cases image with
  | none => simp [buildPod]
  | some image => cases h : fromValue spec <;> simp [buildPod, h]

/-- The answers to a probe that goes well: an image is configured and the templates of both
pods are accepted, both are created, the server gets an IP and the client succeeds before
anything ends the waits, and the logs hold a record that is ok. -/
structure GoodAnswers (t : Target) (env : Answers) (server client : CreatedPod) (ip : String)
    (rec : ProbeRecord) : Prop where
  image : env.probeImage.isSome
  serverBuilt : env.fromValue ⟨.server, t.serverNode, t.clientNode, none, t.rack⟩
  serverCreated : env.serverCreated = some server
  getsIp : GetsIp env.serverPolls ip
  clientBuilt : env.fromValue ⟨.client, t.clientNode, t.serverNode, some ip, t.rack⟩
  clientCreated : env.clientCreated = some client
  succeeds : Succeeds env.clientPolls
  record : readRecord env.fromStr env.logs = .ok rec
  ok : rec.ok

/-- A probe that goes well creates the two pods, reaches the verdict of the record, and
deletes the pods. -/
theorem probe_of_goodAnswers {t : Target} {env : Answers} {server client : CreatedPod}
    {ip : String} {rec : ProbeRecord} (h : GoodAnswers t env server client ip rec) :
    ∃ ipPolls polls, (∀ e ∈ ipPolls ++ polls, e.IsPoll) ∧
      probe t env =
        .create ⟨.server, t.serverNode, t.clientNode, none, t.rack⟩ (some server) :: (ipPolls ++
          .create ⟨.client, t.clientNode, t.serverNode, some ip, t.rack⟩ (some client) ::
            (polls ++ .logs env.logs :: (t.judge (.ok rec) ++
              [.delete client.podName, .delete server.podName]))) := by
  have hip := (awaitPodIp_eq_ok_iff server.podName _ ip).mpr h.getsIp
  have hsucceeded := (awaitTerminal_eq_succeeded_iff client.podName _).mpr h.succeeds
  have hwait := awaitTerminal_spec client.podName env.clientPolls
  refine ⟨(awaitPodIp server.podName env.serverPolls).2,
    (awaitTerminal client.podName env.clientPolls).2,
    List.forall_mem_append.mpr ⟨fun e he => (awaitPodIp_events _ _ e he).1, hwait.polls⟩, ?_⟩
  rw [probe, buildPod_eq_ok_iff.mpr ⟨h.image, h.serverBuilt⟩]
  dsimp only
  rw [probeServer, h.serverCreated]
  dsimp only
  rw [hip]
  dsimp only
  rw [buildPod_eq_ok_iff.mpr ⟨h.image, h.clientBuilt⟩]
  dsimp only
  rw [probeClient, h.clientCreated]
  dsimp only
  rw [hsucceeded]
  dsimp only [verdictOf]
  rw [h.record]
  dsimp only
  rw [if_pos h.ok]
  rfl

/-- The client pod is seen to succeed, from its creation on. -/
lemma sawOk_probeClient (t : Target) (env : Answers) (server : String) (spec : PodSpec)
    (h : SawOk env.fromStr (probeClient t env server spec)) :
    ∃ pod rec, env.clientCreated = some pod ∧ Succeeds env.clientPolls ∧
      readRecord env.fromStr env.logs = .ok rec ∧ rec.ok := by
  rw [probeClient] at h
  cases hcreated : env.clientCreated with
  | none =>
      rw [hcreated] at h
      exact absurd ((sawOk_cons (by simp) (by simp)).mp ((sawOk_cons (by simp) (by simp)).mp h))
        (not_sawOk_judge t _ _)
  | some pod =>
      rw [hcreated] at h
      have hw := awaitTerminal_spec pod.podName env.clientPolls
      have hsucceeds := awaitTerminal_eq_succeeded_iff pod.podName env.clientPolls
      revert h hw hsucceeds
      simp only
      generalize awaitTerminal pod.podName env.clientPolls = wait
      obtain ⟨result, polls⟩ := wait
      intro h hw hsucceeds
      rw [sawOk_cons (by simp) (by simp)] at h
      cases result with
      | error e =>
          rw [sawOk_append_polls hw.polls (by rw [hw.succeeded]; simp)] at h
          exact absurd ((sawOk_cons (by simp) (by simp)).mp ((sawOk_cons (by simp) (by simp)).mp h))
            (not_sawOk_judge t _ _)
      | ok phase =>
          obtain ⟨rfl, rec, hrec, hok⟩ := (label_eq_ok_iff env phase).mp
            ((judged_terminal t env pod.podName server hw).ok_iff.mpr h)
          exact ⟨pod, rec, rfl, hsucceeds.mp rfl, hrec, hok⟩

/-- From the creation of the server pod on: it gets an IP, and the client pod succeeds. -/
lemma sawOk_probeServer (t : Target) (env : Answers) (spec : PodSpec)
    (h : SawOk env.fromStr (probeServer t env spec)) :
    ∃ server client ip rec, env.serverCreated = some server ∧ GetsIp env.serverPolls ip ∧
      env.fromValue ⟨.client, t.clientNode, t.serverNode, some ip, t.rack⟩ ∧
      env.clientCreated = some client ∧ Succeeds env.clientPolls ∧
      readRecord env.fromStr env.logs = .ok rec ∧ rec.ok := by
  rw [probeServer] at h
  cases hcreated : env.serverCreated with
  | none =>
      rw [hcreated] at h
      exact absurd ((sawOk_cons (by simp) (by simp)).mp h) (not_sawOk_judge t _ _)
  | some server =>
      rw [hcreated] at h
      dsimp only at h
      have hevents := awaitPodIp_events server.podName env.serverPolls
      rw [sawOk_cons (by simp) (by simp), sawOk_append_polls (fun e he => (hevents e he).1)
        fun ⟨status, hmem, _⟩ => (hevents _ hmem).2.1 _ rfl] at h
      cases hip : (awaitPodIp server.podName env.serverPolls).1 with
      | error e =>
          rw [hip] at h
          exact absurd ((sawOk_cons (by simp) (by simp)).mp h) (not_sawOk_judge t _ _)
      | ok ip =>
          rw [hip] at h
          dsimp only at h
          cases hbuilt : buildPod env.probeImage env.fromValue
              ⟨.client, t.clientNode, t.serverNode, some ip, t.rack⟩ with
          | error e =>
              rw [hbuilt] at h
              exact absurd ((sawOk_cons (by simp) (by simp)).mp h) (not_sawOk_judge t _ _)
          | ok _ =>
              rw [hbuilt] at h
              obtain ⟨client, rec, hclient⟩ := sawOk_probeClient t env _ _ h
              exact ⟨server, client, ip, rec, rfl, (awaitPodIp_eq_ok_iff _ _ _).mp hip,
                (buildPod_eq_ok_iff.mp hbuilt).2, hclient⟩

/-- **A probe is seen to be ok exactly when the answers are good.** -/
theorem sawOk_probe_iff (t : Target) (env : Answers) :
    SawOk env.fromStr (probe t env) ↔
      ∃ server client ip rec, GoodAnswers t env server client ip rec := by
  constructor
  · intro h
    rw [probe] at h
    cases hbuilt : buildPod env.probeImage env.fromValue
        ⟨.server, t.serverNode, t.clientNode, none, t.rack⟩ with
    | error e =>
        rw [hbuilt] at h
        exact absurd h (not_sawOk_judge t _ _)
    | ok _ =>
        rw [hbuilt] at h
        obtain ⟨himage, hserver⟩ := buildPod_eq_ok_iff.mp hbuilt
        obtain ⟨server, client, ip, rec, hcreated, hip, hclient, hclientCreated, hsucceeds, hrec,
          hok⟩ := sawOk_probeServer t env _ h
        exact ⟨server, client, ip, rec, himage, hserver, hcreated, hip, hclient, hclientCreated,
          hsucceeds, hrec, hok⟩
  · rintro ⟨server, client, ip, rec, h⟩
    obtain ⟨v, hv⟩ := judged_probe t env
    refine hv.ok_iff.mp ?_
    obtain ⟨ipPolls, polls, hpolls, hevents⟩ := probe_of_goodAnswers h
    have hattempted : Event.attempt t.metric t.rack "ok" ∈ probe t env := by
      rw [hevents]
      simp [Target.judge, Verdict.label]
    have hmem : (t.metric, t.rack, "ok") ∈ (probe t env).filterMap Event.attempted :=
      List.mem_filterMap.mpr ⟨_, hattempted, rfl⟩
    rw [hv.attempted, List.mem_singleton] at hmem
    exact (Prod.ext_iff.mp (Prod.ext_iff.mp hmem).2).2.symm

/-! ### What a probe leaves -/

end Accelrd.Prober
