import Mathlib.Tactic
import Accelrd.Prober.Annotations
import Accelrd.Telemetry.Preflight

/-!
One node with all its writers: the daemon, which reads the metadata and later patches it
(`OptionalLabeler::apply` of `src/k8s/labeler.rs`), the prober, and everybody else.

* `Event`, `step`, `run`: the requests in the order in which they take effect. Those of
  the daemon take effect in the order in which it sends them, so that all attempts of one
  reconcile lie between its read and the next read.
* `step_cases`: what a step can do to the metadata and to a reconcile in progress.
* `Inv`, `run_inv`: every run keeps the owned keys as last published, the patch in
  progress settled, and all other keys as their writers left them.
* `reconcile_converges`: the daemon and the others do not disturb each other.
-/

namespace Accelrd.K8s

open Std Kube Ownership Accelrd.Topology Telemetry
open Prober (Write afterWrites)

/-! ### The writers -/

/-- A write by somebody who is neither the daemon nor the prober. It keeps off the
prefixes of the daemon. -/
structure ForeignWrite where
  patch : MetaPatch
  labels : ∀ k, Managed k → patch.labelWord k = none
  annotations : ∀ k, Managed k → patch.annotationWord k = none

/-- What becomes of an attempt to send the patch: it takes effect and the daemon is told
so, it takes effect but the answer is an error, or it does not take effect. -/
inductive Attempt where
  | accepted
  | unanswered
  | rejected

/-- A request that takes effect, or fails. -/
inductive Event where
  | get (cycle : Cycle)
  | getFailed (cycle : Cycle)
  | attempt (outcome : Attempt)
  | restart
  | probe (write : Write)
  | foreign (write : ForeignWrite)

/-- A reconcile between its read and its last attempt: the cycle it publishes, the patch
it has built, and the number of the next attempt. -/
structure Reconcile where
  cycle : Cycle
  body : MetaPatch
  attempt : ℕ

/-- `MAX_ATTEMPTS`. -/
def maxAttempts : ℕ := 3

/-- The reconcile after an attempt that was answered by an error. -/
def Reconcile.retry (r : Reconcile) : Option Reconcile :=
  if r.attempt < maxAttempts then some { r with attempt := r.attempt + 1 } else none

/-- The metadata of the node, the daemon's reconcile in progress, and the cycle whose patch
took effect last. No step reads the latter. -/
structure State where
  node : ObjectMeta
  reconcile : Option Reconcile
  published : Option Cycle

/-- The beginning of a run. -/
def start (initial : ObjectMeta) : State where
  node := initial
  reconcile := none
  published := none

/-- One event; `none` if it is not possible in the state. -/
def step (s : State) : Event → Option State
  | .get c =>
      match s.reconcile with
      | none => some { s with reconcile := some ⟨c, buildMergePatch s.node c.desired, 1⟩ }
      | some _ => none
  -- without the metadata the daemon does not patch at all
  | .getFailed _ =>
      match s.reconcile with
      | none => some s
      | some _ => none
  | .attempt outcome =>
      match s.reconcile with
      | none => none
      | some r =>
          match outcome with
          | .accepted => some ⟨s.node.merge r.body, none, some r.cycle⟩
          | .unanswered => some ⟨s.node.merge r.body, r.retry, some r.cycle⟩
          | .rejected => some { s with reconcile := r.retry }
  -- a new process knows nothing of a reconcile of the old one
  | .restart => some { s with reconcile := none }
  | .probe w => some { s with node := s.node.merge { annotations := w.body } }
  | .foreign w => some { s with node := s.node.merge w.patch }

/-- A run. -/
def run (s : State) (es : List Event) : Option State := es.foldlM step s

/-- The write of an event, unless it is one of the daemon. -/
def Event.patch : Event → Option MetaPatch
  | .probe w => some { annotations := w.body }
  | .foreign w => some w.patch
  | _ => none

/-- What somebody else than the daemon has to say about a label. -/
def Event.labelWord (e : Event) (k : String) : Option (Option String) :=
  e.patch.bind (·.labelWord k)

/-- What somebody else than the daemon has to say about an annotation. -/
def Event.annotationWord (e : Event) (k : String) : Option (Option String) :=
  e.patch.bind (·.annotationWord k)

/-- The write of the prober. -/
def Event.probed : Event → Option Write
  | .probe w => some w
  | _ => none

/-! ### Steps -/

/-- What a step can do: somebody else writes, the daemon's patch takes effect, or the
metadata stay as they are. A reconcile that goes on keeps its patch; a new one has built it
from the metadata. -/
inductive StepCases (s : State) (e : Event) (s' : State) : Prop where
  | other (p : MetaPatch) (he : e.patch = some p) (hnode : s'.node = s.node.merge p)
      (hrec : s'.reconcile = s.reconcile) (hpub : s'.published = s.published)
  | patched (r : Reconcile) (he : e.patch = none) (hr : s.reconcile = some r)
      (hnode : s'.node = s.node.merge r.body) (hpub : s'.published = some r.cycle)
      (hrec : ∀ r', s'.reconcile = some r' → r'.body = r.body ∧ r'.cycle = r.cycle)
  | silent (he : e.patch = none) (hnode : s'.node = s.node) (hpub : s'.published = s.published)
      (hrec : ∀ r', s'.reconcile = some r' →
        r'.body = buildMergePatch s.node r'.cycle.desired ∨
        ∃ r, s.reconcile = some r ∧ r'.body = r.body ∧ r'.cycle = r.cycle)

lemma Reconcile.retry_eq {r r' : Reconcile} (h : r.retry = some r') :
    r'.body = r.body ∧ r'.cycle = r.cycle := by
  rw [retry] at h
  split_ifs at h
  obtain rfl := Option.some.inj h
  exact ⟨rfl, rfl⟩

/-- Every step is one of the three. -/
lemma step_cases {s s' : State} {e : Event} (h : step s e = some s') : StepCases s e s' := by
  cases e with
  | get c =>
      cases hr : s.reconcile with
      | none =>
          simp only [step, hr, Option.some.injEq] at h
          subst h
          refine .silent rfl rfl rfl fun r' hr' => .inl ?_
          obtain rfl := Option.some.inj hr'
          rfl
      | some r => simp [step, hr] at h
  | getFailed c =>
      cases hr : s.reconcile with
      | none =>
          simp only [step, hr, Option.some.injEq] at h
          subst h
          exact .silent rfl rfl rfl fun r' hr' => by simp [hr] at hr'
      | some r => simp [step, hr] at h
  | attempt outcome =>
      cases hr : s.reconcile with
      | none => simp [step, hr] at h
      | some r =>
          cases outcome with
          | accepted =>
              simp only [step, hr, Option.some.injEq] at h
              subst h
              exact .patched r rfl hr rfl rfl fun r' hr' => by simp at hr'
          | unanswered =>
              simp only [step, hr, Option.some.injEq] at h
              subst h
              exact .patched r rfl hr rfl rfl fun r' hr' => Reconcile.retry_eq hr'
          | rejected =>
              simp only [step, hr, Option.some.injEq] at h
              subst h
              exact .silent rfl rfl rfl fun r' hr' => .inr ⟨r, hr, Reconcile.retry_eq hr'⟩
  | restart =>
      simp only [step, Option.some.injEq] at h
      subst h
      exact .silent rfl rfl rfl fun r' hr' => by simp at hr'
  | probe w =>
      simp only [step, Option.some.injEq] at h
      subst h
      exact .other _ rfl rfl rfl rfl
  | foreign w =>
      simp only [step, Option.some.injEq] at h
      subst h
      exact .other _ rfl rfl rfl rfl

/-! ### Whose keys are whose -/

/-- The prefix of the prober's annotations. -/
def testPrefix : String := "accel-test.lunnova.dev/"

/-- The daemon owns no key of the prober: no prefix of the one is a prefix of the other. -/
lemma not_managed_of_startsWith {k : String} (h : Text.startsWith k testPrefix) : ¬ Managed k := by
  intro hk
  obtain ⟨p, hp, hkp⟩ := List.any_eq_true.mp hk
  have hdisjoint : ∀ p ∈ managedPrefixes, ¬ Text.startsWith p testPrefix ∧
      ¬ Text.startsWith testPrefix p := by decide
  rcases Nat.le_total testPrefix.length p.length with hle | hle
  · exact (hdisjoint p hp).1 (Text.startsWith_of_length_le h hkp hle)
  · exact (hdisjoint p hp).2 (Text.startsWith_of_length_le hkp h hle)

/-- The prober writes under its own prefix. -/
lemma startsWith_of_mem_family (w : Write) {k : String} (hk : k ∈ w.keys.family) :
    Text.startsWith k testPrefix := by
  have hall : ∀ k ∈ Prober.Keys.rack.family ++ Prober.Keys.loopback.family,
      Text.startsWith k testPrefix := by decide +kernel
  cases w with
  | pair partner now verdict => exact hall k (List.mem_append_left _ hk)
  | loopback now verdict => exact hall k (List.mem_append_right _ hk)

/-- The prober says nothing about the keys of the daemon. -/
lemma body_eq_none_of_managed (w : Write) {k : String} (hk : Managed k) : w.body[k]? = none := by
  have hfamily : k ∉ w.keys.family := fun hmem =>
    not_managed_of_startsWith (startsWith_of_mem_family w hmem) hk
  cases w with
  | pair partner now verdict => exact Prober.buildBody_eq_none_of_notMem_family hfamily
  | loopback now verdict => exact Prober.buildBody_eq_none_of_notMem_family hfamily

/-- Nobody else writes a key of the daemon. -/
lemma Event.patch_of_managed {e : Event} {p : MetaPatch} (he : e.patch = some p) {k : String}
    (hk : Managed k) : p.labelWord k = none ∧ p.annotationWord k = none := by
  cases e with
  | probe w =>
      obtain rfl := Option.some.inj he
      exact ⟨rfl, body_eq_none_of_managed w hk⟩
  | foreign w =>
      obtain rfl := Option.some.inj he
      exact ⟨w.labels k hk, w.annotations k hk⟩
  | get c => simp [Event.patch] at he
  | getFailed c => simp [Event.patch] at he
  | attempt outcome => simp [Event.patch] at he
  | restart => simp [Event.patch] at he

/-! ### Runs -/

/-- What every run from `initial` keeps, after the events `es`. -/
structure Inv (initial : ObjectMeta) (es : List Event) (s : State) : Prop where
  published : ∀ c, s.published = some c → ∀ k, Managed k →
    s.node.labelAt k = c.desired.labels[k]? ∧ s.node.annotationAt k = c.desired.annotations[k]?
  settled : ∀ r, s.reconcile = some r → Settled r.body s.node r.cycle.desired
  others : ∀ k, ¬ Managed k →
    s.node.labelAt k = lastWord (initial.labelAt k) (es.map fun e => e.labelWord k) ∧
    s.node.annotationAt k = lastWord (initial.annotationAt k) (es.map fun e => e.annotationWord k)

lemma inv_start (initial : ObjectMeta) : Inv initial [] (start initial) where
  published c h := by simp [start] at h
  settled r h := by simp [start] at h
  others k hk := ⟨rfl, rfl⟩

/-- The words of the others after one event more. -/
lemma lastWord_events (initial : ObjectMeta) (es : List Event) (e : Event) (k : String) :
    lastWord (initial.labelAt k) ((es ++ [e]).map fun e => e.labelWord k)
        = (e.labelWord k).getD (lastWord (initial.labelAt k) (es.map fun e => e.labelWord k)) ∧
      lastWord (initial.annotationAt k) ((es ++ [e]).map fun e => e.annotationWord k)
        = (e.annotationWord k).getD
          (lastWord (initial.annotationAt k) (es.map fun e => e.annotationWord k)) :=
  ⟨lastWord_map_append_singleton _ _ _ _, lastWord_map_append_singleton _ _ _ _⟩

/-- An event that leaves the keys of the others alone. -/
lemma Inv.others_of_none {initial : ObjectMeta} {es : List Event} {s s' : State} {e : Event}
    (hi : Inv initial es s) (he : e.patch = none)
    (heq : ∀ k, ¬ Managed k → s'.node.labelAt k = s.node.labelAt k ∧
      s'.node.annotationAt k = s.node.annotationAt k) :
    ∀ k, ¬ Managed k →
      s'.node.labelAt k
        = lastWord (initial.labelAt k) ((es ++ [e]).map fun e => e.labelWord k) ∧
      s'.node.annotationAt k
        = lastWord (initial.annotationAt k) ((es ++ [e]).map fun e => e.annotationWord k) := by
  intro k hk
  obtain ⟨hl, ha⟩ := lastWord_events initial es e k
  have hlabel : e.labelWord k = none := by rw [Event.labelWord, he, Option.bind_none]
  have hann : e.annotationWord k = none := by rw [Event.annotationWord, he, Option.bind_none]
  rw [hl, ha, hlabel, hann, (heq k hk).1, (heq k hk).2]
  exact hi.others k hk

/-- Somebody else writes. -/
lemma Inv.other {initial : ObjectMeta} {es : List Event} {s s' : State} {e : Event} {p : MetaPatch}
    (hi : Inv initial es s) (he : e.patch = some p) (hnode : s'.node = s.node.merge p)
    (hrec : s'.reconcile = s.reconcile) (hpub : s'.published = s.published) :
    Inv initial (es ++ [e]) s' := by
  have hkeep (k : String) (hk : Managed k) : s'.node.labelAt k = s.node.labelAt k ∧
      s'.node.annotationAt k = s.node.annotationAt k := by
    obtain ⟨hl, ha⟩ := Event.patch_of_managed he hk
    rw [hnode, ObjectMeta.labelAt_merge, ObjectMeta.annotationAt_merge, hl, ha]
    exact ⟨rfl, rfl⟩
  refine ⟨fun c hc k hk => ?_, fun r hr => ?_, fun k hk => ?_⟩
  · rw [(hkeep k hk).1, (hkeep k hk).2]
    exact hi.published c (hpub ▸ hc) k hk
  · exact (hi.settled r (hrec ▸ hr)).congr (fun k hk => (hkeep k hk).1) fun k hk => (hkeep k hk).2
  · obtain ⟨hl, ha⟩ := lastWord_events initial es e k
    obtain ⟨hlabel, hann⟩ := hi.others k hk
    rw [hl, ha, ← hlabel, ← hann, hnode, ObjectMeta.labelAt_merge, ObjectMeta.annotationAt_merge,
      Event.labelWord, Event.annotationWord, he]
    exact ⟨rfl, rfl⟩

/-- The patch of the daemon takes effect. -/
lemma Inv.patched {initial : ObjectMeta} {es : List Event} {s s' : State} {e : Event}
    {r : Reconcile} (hi : Inv initial es s) (he : e.patch = none) (hr : s.reconcile = some r)
    (hnode : s'.node = s.node.merge r.body) (hpub : s'.published = some r.cycle)
    (hrec : ∀ r', s'.reconcile = some r' → r'.body = r.body ∧ r'.cycle = r.cycle) :
    Inv initial (es ++ [e]) s' := by
  have hsettled := hi.settled r hr
  obtain ⟨howned, hframe⟩ := hsettled.merge
  refine ⟨fun c hc k hk => ?_, fun r' hr' => ?_, hi.others_of_none he fun k hk => ?_⟩
  · rw [hpub] at hc
    obtain rfl := Option.some.inj hc
    rw [hnode]
    exact howned k hk
  · obtain ⟨hbody, hcycle⟩ := hrec r' hr'
    rw [hbody, hcycle, hnode]
    exact hsettled.again
  · rw [hnode, ObjectMeta.labelAt_merge, ObjectMeta.annotationAt_merge, (hframe k hk).1,
      (hframe k hk).2]
    exact ⟨rfl, rfl⟩

/-- Every step keeps it. -/
lemma step_inv {initial : ObjectMeta} {es : List Event} {s s' : State} {e : Event}
    (hi : Inv initial es s) (h : step s e = some s') : Inv initial (es ++ [e]) s' := by
  cases step_cases h with
  | other p he hnode hrec hpub => exact hi.other he hnode hrec hpub
  | patched r he hr hnode hpub hrec => exact hi.patched he hr hnode hpub hrec
  | silent he hnode hpub hrec =>
      refine ⟨fun c hc k hk => ?_, fun r' hr' => ?_, hi.others_of_none he fun k hk => ?_⟩
      · rw [hnode]
        exact hi.published c (hpub ▸ hc) k hk
      · rw [hnode]
        rcases hrec r' hr' with hbody | ⟨r, hr, hbody, hcycle⟩
        · rw [hbody]
          exact settled_buildMergePatch s.node r'.cycle.onlyManaged
        · rw [hbody, hcycle]
          exact hi.settled r hr
      · rw [hnode]
        exact ⟨rfl, rfl⟩

/-- Every run keeps it. -/
lemma run_inv {initial : ObjectMeta} {es : List Event} {s : State}
    (h : run (start initial) es = some s) : Inv initial es s := by
  induction es using List.reverseRecOn generalizing s with
  | nil =>
      obtain rfl := Option.some.inj h
      exact inv_start initial
  | append_singleton es e ih =>
      rw [run, List.foldlM_append] at h
      obtain ⟨s₁, hs₁, hstep⟩ := Option.bind_eq_some_iff.mp h
      simp only [List.foldlM_cons, List.foldlM_nil, bind_pure] at hstep
      exact step_inv (ih hs₁) hstep

/-- An annotation that nobody but the prober writes holds what the prober's patches alone
make of it. -/
lemma lastWord_eq_afterWrites {initial : ObjectMeta} {es : List Event} {k : String}
    (h : ∀ w, .foreign w ∈ es → w.patch.annotationWord k = none) :
    lastWord (initial.annotationAt k) (es.map fun e => e.annotationWord k)
      = (afterWrites (initial.annotations.getD ∅) (es.filterMap Event.probed))[k]? := by
  induction es using List.reverseRecOn with
  | nil => rfl
  | append_singleton es e ih =>
      have hes := ih fun w hw => h w (List.mem_append_left _ hw)
      rw [List.map_append, List.map_singleton, lastWord_append_singleton, hes,
        List.filterMap_append]
      -- an event that is none of the prober's and does not name the annotation
      have hnone (hp : [e].filterMap Event.probed = []) (ha : e.annotationWord k = none) :
          (e.annotationWord k).getD
              (afterWrites (initial.annotations.getD ∅) (es.filterMap Event.probed))[k]?
            = (afterWrites (initial.annotations.getD ∅)
              (es.filterMap Event.probed ++ [e].filterMap Event.probed))[k]? := by
        rw [hp, ha, List.append_nil, Option.getD_none]
      cases e with
      | probe w =>
          have hp : [Event.probe w].filterMap Event.probed = [w] := rfl
          rw [hp, Prober.afterWrites_append_singleton, MergePatch.getElem?_apply]
          rfl
      | foreign w => exact hnone rfl (h w (by simp))
      | get c => exact hnone rfl rfl
      | getFailed c => exact hnone rfl rfl
      | attempt outcome => exact hnone rfl rfl
      | restart => exact hnone rfl rfl

/-- **The writers of a node do not disturb each other.** In every state that any
interleaving reaches, the labels and annotations under the daemon's prefixes are those of
the cycle whose patch took effect last and no others; every annotation of the prober that
nobody else writes is what the prober's patches alone make of it; and every key that is not
the daemon's holds what was last written there. -/
theorem reconcile_converges (initial : ObjectMeta) (es : List Event) (s : State)
    (h : run (start initial) es = some s) :
    (∀ c, s.published = some c → ∀ k, Managed k →
      s.node.labelAt k = c.desired.labels[k]? ∧
      s.node.annotationAt k = c.desired.annotations[k]?) ∧
    (∀ k, Text.startsWith k testPrefix →
      (∀ w, .foreign w ∈ es → w.patch.annotationWord k = none) →
      s.node.annotationAt k
        = (afterWrites (initial.annotations.getD ∅) (es.filterMap Event.probed))[k]?) ∧
    (∀ k, ¬ Managed k →
      s.node.labelAt k = lastWord (initial.labelAt k) (es.map fun e => e.labelWord k) ∧
      s.node.annotationAt k
        = lastWord (initial.annotationAt k) (es.map fun e => e.annotationWord k)) := by
  have hi := run_inv h
  refine ⟨hi.published, fun k hk hforeign => ?_, hi.others⟩
  rw [(hi.others k (not_managed_of_startsWith hk)).2, lastWord_eq_afterWrites hforeign]

/-- A node without accelerators. -/
def emptyCycle : Cycle where
  sysfs := fun _ => none
  topology := ⟨none, none, [], [], ⟨[]⟩⟩
  accelerators := []
  checks := []
  clock := 1778157296

/-- A node from which the accelerators were removed while the daemon was not running. -/
def staleNode : ObjectMeta where
  name := some "node-a"
  labels := some (ExtTreeMap.ofList [("accel.lunnova.dev/vendor.amd.count", "8")])

/-- The patch of an operator who gives the node a team. -/
def teamPatch : MetaPatch where
  labels := some (ExtTreeMap.ofList [("example.org/team", some "ml")])

lemma labelWord_teamPatch {k : String} (hk : Managed k) : teamPatch.labelWord k = none := by
  have hne : k ≠ "example.org/team" := by
    rintro rfl
    exact absurd hk (by decide)
  exact ExtTreeMap.getElem?_ofList_of_contains_eq_false (by simpa using hne)

/-- The operator keeps off the keys of the daemon. -/
def teamWrite : ForeignWrite where
  patch := teamPatch
  labels _ hk := labelWord_teamPatch hk
  annotations _ _ := rfl

/-- The first answer is lost; a probe ends, and an operator labels the node, before the patch
is sent again. -/
def sharedNode : List Event :=
  [.get emptyCycle, .attempt .unanswered,
    .probe (.pair "node-b" "2026-05-07T12:34:56Z" .timeout), .foreign teamWrite,
    .attempt .accepted]

/-- The stale label is gone, and what the prober and the operator wrote is there. -/
theorem reconcile_converges_stale :
    ∃ s, run (start staleNode) sharedNode = some s ∧
      s.node.labelAt "accel.lunnova.dev/vendor.amd.count" = none ∧
      s.node.labelAt "accel.lunnova.dev/total-count" = some "0" ∧
      s.node.annotationAt "accel-test.lunnova.dev/last-rack-partner" = some "node-b" ∧
      s.node.labelAt "example.org/team" = some "ml" := by
  refine ⟨_, rfl, ?_⟩
  obtain ⟨hmanaged, hprober, hothers⟩ :=
    reconcile_converges staleNode sharedNode _ rfl
  have hstale := (hmanaged emptyCycle rfl "accel.lunnova.dev/vendor.amd.count" (by decide)).1
  have htotal := (hmanaged emptyCycle rfl "accel.lunnova.dev/total-count" (by decide)).1
  have hpartner := hprober "accel-test.lunnova.dev/last-rack-partner" (by decide) fun w hw => by
    simp only [sharedNode, List.mem_cons, reduceCtorEq, Event.foreign.injEq, List.not_mem_nil,
      false_or, or_false] at hw
    rw [hw]
    rfl
  have hteam := (hothers "example.org/team" (by decide)).1
  refine ⟨hstale.trans ?_, htotal.trans ?_, hpartner.trans ?_, hteam.trans ?_⟩
  · decide
  · decide
  · decide
  · decide

end Accelrd.K8s
