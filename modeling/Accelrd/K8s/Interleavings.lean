import Mathlib.Tactic
import Accelrd.Library.Interleaving
import Accelrd.K8s.Sharing

/-!
The order in which the writers of a node take turns does not matter: `apply` of
`src/k8s/labeler.rs` beside the patches of `src/prober/annotations.rs`.

* `Progress`, `Progress.step`: what the daemon's requests alone amount to; it follows every
  run (`follows_progress`).
* `interleavings_agree`: the same requests, with those of each writer in the same order, are
  possible in every interleaving, and leave the same labels and annotations.
-/

namespace Accelrd.K8s

open Std Kube Ownership Accelrd.Topology Telemetry Interleaving
open Prober (Write)

/-! ### The daemon on its own -/

/-- An event of the daemon. -/
def Event.isDaemon : Event → Bool
  | .get _ => true
  | .getFailed _ => true
  | .attempt _ => true
  | .restart => true
  | .probe _ => false
  | .foreign _ => false

/-- The write of another actor. -/
def Event.foreignWrite : Event → Option ForeignWrite
  | .foreign w => some w
  | _ => none

/-- How far the daemon has come: the cycle it is publishing with the number of its next
attempt, and the cycle it has published last. -/
structure Progress where
  publishing : Option (Cycle × ℕ)
  published : Option Cycle

/-- The part of a state that is the daemon's progress. -/
def State.progress (s : State) : Progress where
  publishing := s.reconcile.map fun r => (r.cycle, r.attempt)
  published := s.published

/-- One event, seen by the daemon. -/
def Progress.step (p : Progress) : Event → Option Progress
  | .get c =>
      match p.publishing with
      | none => some { p with publishing := some (c, 1) }
      | some _ => none
  | .getFailed _ =>
      match p.publishing with
      | none => some p
      | some _ => none
  | .attempt outcome =>
      match p.publishing with
      | none => none
      | some (c, attempt) =>
          let again := if attempt < maxAttempts then some (c, attempt + 1) else none
          match outcome with
          | .accepted => some ⟨none, some c⟩
          | .unanswered => some ⟨again, some c⟩
          | .rejected => some { p with publishing := again }
  | .restart => some { p with publishing := none }
  | .probe _ => some p
  | .foreign _ => some p

lemma Reconcile.map_retry (r : Reconcile) :
    (r.retry.map fun r => (r.cycle, r.attempt)) =
      if r.attempt < maxAttempts then some (r.cycle, r.attempt + 1) else none := by
  rw [retry]
  split_ifs <;> rfl

/-- The daemon's progress does not depend on the metadata of the node. -/
lemma follows_progress :
    Follows K8s.step Progress.step State.progress Event.isDaemon where
  map_step s e := by
    cases e with
    | get c =>
        cases hr : s.reconcile with
        | none => simp [step, Progress.step, State.progress, hr]
        | some r => simp [step, Progress.step, State.progress, hr]
    | getFailed c =>
        cases hr : s.reconcile with
        | none => simp [step, Progress.step, State.progress, hr]
        | some r => simp [step, Progress.step, State.progress, hr]
    | attempt outcome =>
        cases hr : s.reconcile with
        | none => simp [step, Progress.step, State.progress, hr]
        | some r =>
            cases outcome with
            | accepted => simp [step, Progress.step, State.progress, hr]
            | unanswered => simp [step, Progress.step, State.progress, hr, r.map_retry]
            | rejected => simp [step, Progress.step, State.progress, hr, r.map_retry]
    | restart => rfl
    | probe w => rfl
    | foreign w => rfl
  idle p e he := by
    cases e with
    | probe w => rfl
    | foreign w => rfl
    | get c => simp [Event.isDaemon] at he
    | getFailed c => simp [Event.isDaemon] at he
    | attempt outcome => simp [Event.isDaemon] at he
    | restart => simp [Event.isDaemon] at he

/-! ### What is on the node -/

/-- Nobody else touches the keys of the daemon before it has published anything. -/
lemma unpublished {initial : ObjectMeta} {es : List Event} {s : State}
    (h : run (start initial) es = some s) (hnone : s.published = none) {k : String}
    (hk : Managed k) :
    s.node.labelAt k = initial.labelAt k ∧ s.node.annotationAt k = initial.annotationAt k := by
  induction es using List.reverseRecOn generalizing s with
  | nil =>
      obtain rfl := Option.some.inj h
      exact ⟨rfl, rfl⟩
  | append_singleton es e ih =>
      rw [run, List.foldlM_append] at h
      obtain ⟨s₁, hs₁, hstep⟩ := Option.bind_eq_some_iff.mp h
      simp only [List.foldlM_cons, List.foldlM_nil, bind_pure] at hstep
      cases step_cases hstep with
      | other p he hnode hrec hpub =>
          obtain ⟨hl, ha⟩ := Event.patch_of_managed he hk
          rw [hnode, ObjectMeta.labelAt_merge, ObjectMeta.annotationAt_merge, hl, ha]
          exact ih hs₁ (hpub ▸ hnone)
      | patched r he hr hnode hpub hrec => simp [hpub] at hnone
      | silent he hnode hpub hrec =>
          rw [hnode]
          exact ih hs₁ (hpub ▸ hnone)

/-- A key that only the others write depends on what they have said about it. -/
lemma lastWord_foreign {word : Event → Option (Option String)}
    {said : ForeignWrite → Option (Option String)} {es : List Event}
    (h : ∀ e ∈ es, word e = e.foreignWrite.bind said) (initial : Option String) :
    lastWord initial (es.map word) =
      lastWord initial ((es.filterMap Event.foreignWrite).map said) := by
  have hwords : (es.map word).filterMap id =
      ((es.filterMap Event.foreignWrite).map said).filterMap id := by
    rw [List.filterMap_map, List.filterMap_map, List.filterMap_filterMap]
    exact List.filterMap_congr fun e he => h e he
  rw [lastWord, hwords, lastWord]

/-- The writers keep to their prefixes: nobody but the prober writes under its prefix. -/
def KeepOff (es : List Event) : Prop :=
  ∀ w, .foreign w ∈ es → ∀ k, Text.startsWith k testPrefix → w.patch.annotationWord k = none

/-- The same requests, with those of each writer in the same order. -/
structure SameRequests (es es' : List Event) : Prop where
  daemon : es.filter Event.isDaemon = es'.filter Event.isDaemon
  probed : es.filterMap Event.probed = es'.filterMap Event.probed
  foreign : es.filterMap Event.foreignWrite = es'.filterMap Event.foreignWrite

/-- The prober writes no labels, and annotations under its own prefix only. -/
lemma Event.word_eq_foreign (e : Event) (k : String) :
    e.labelWord k = e.foreignWrite.bind (·.patch.labelWord k) ∧
      (¬ Text.startsWith k testPrefix →
        e.annotationWord k = e.foreignWrite.bind (·.patch.annotationWord k)) := by
  cases e with
  | probe w =>
      refine ⟨rfl, fun hk => ?_⟩
      have hfamily : k ∉ w.keys.family := fun hmem => hk (startsWith_of_mem_family w hmem)
      cases w with
      | pair partner now verdict => exact Prober.buildBody_eq_none_of_notMem_family hfamily
      | loopback now verdict => exact Prober.buildBody_eq_none_of_notMem_family hfamily
  | foreign w => exact ⟨rfl, fun _ => rfl⟩
  | get c => exact ⟨rfl, fun _ => rfl⟩
  | getFailed c => exact ⟨rfl, fun _ => rfl⟩
  | attempt outcome => exact ⟨rfl, fun _ => rfl⟩
  | restart => exact ⟨rfl, fun _ => rfl⟩

/-- The keys of the daemon after two interleavings that have published the same. -/
lemma managed_agree {initial : ObjectMeta} {es es' : List Event} {s s' : State}
    (h : run (start initial) es = some s) (h' : run (start initial) es' = some s')
    (hpub : s.published = s'.published) {k : String} (hk : Managed k) :
    s.node.labelAt k = s'.node.labelAt k ∧ s.node.annotationAt k = s'.node.annotationAt k := by
  cases hc : s'.published with
  | none =>
      obtain ⟨hl, ha⟩ := unpublished h (hpub.trans hc) hk
      obtain ⟨hl', ha'⟩ := unpublished h' hc hk
      exact ⟨hl.trans hl'.symm, ha.trans ha'.symm⟩
  | some c =>
      obtain ⟨hl, ha⟩ := (run_inv h).published c (hpub.trans hc) k hk
      obtain ⟨hl', ha'⟩ := (run_inv h').published c hc k hk
      exact ⟨hl.trans hl'.symm, ha.trans ha'.symm⟩

/-- The other keys after two interleavings of the same writes. -/
lemma others_agree {initial : ObjectMeta} {es es' : List Event} {s s' : State}
    (h : run (start initial) es = some s) (h' : run (start initial) es' = some s')
    (hsame : SameRequests es es') (hoff : KeepOff es) {k : String} (hk : ¬ Managed k) :
    s.node.labelAt k = s'.node.labelAt k ∧ s.node.annotationAt k = s'.node.annotationAt k := by
  obtain ⟨hl, ha⟩ := (run_inv h).others k hk
  obtain ⟨hl', ha'⟩ := (run_inv h').others k hk
  refine ⟨?_, ?_⟩
  · rw [hl, hl', lastWord_foreign fun e _ => (e.word_eq_foreign k).1,
      lastWord_foreign fun e _ => (e.word_eq_foreign k).1, hsame.foreign]
  · by_cases htest : Text.startsWith k testPrefix
    · have hoff' : KeepOff es' := fun w hw => by
        have hmem : w ∈ es.filterMap Event.foreignWrite :=
          hsame.foreign ▸ List.mem_filterMap.mpr ⟨_, hw, rfl⟩
        obtain ⟨e, he, hew⟩ := List.mem_filterMap.mp hmem
        cases e with
        | foreign w' =>
            obtain rfl := Option.some.inj hew
            exact hoff w' he
        | _ => simp [Event.foreignWrite] at hew
      rw [ha, ha', lastWord_eq_afterWrites fun w hw => hoff w hw k htest,
        lastWord_eq_afterWrites fun w hw => hoff' w hw k htest, hsame.probed]
    · rw [ha, ha', lastWord_foreign fun e _ => (e.word_eq_foreign k).2 htest,
        lastWord_foreign fun e _ => (e.word_eq_foreign k).2 htest, hsame.foreign]

/-- **The writers may take turns as they like.** If the requests of the daemon with their
outcomes, the patches of the prober and the writes of the others can take effect in one
order, then they can in every other order that keeps each writer's own; and every label and
every annotation of the node is the same in the end. -/
theorem interleavings_agree (initial : ObjectMeta) (es es' : List Event) (s : State)
    (h : run (start initial) es = some s) (hsame : SameRequests es es') (hoff : KeepOff es) :
    ∃ s', run (start initial) es' = some s' ∧
      s'.published = s.published ∧
      ∀ k, s'.node.labelAt k = s.node.labelAt k ∧
        s'.node.annotationAt k = s.node.annotationAt k := by
  have hprogress : (run (start initial) es).map State.progress =
      (run (start initial) es').map State.progress :=
    follows_progress.agree (start initial) hsame.daemon
  rw [h, Option.map_some] at hprogress
  obtain ⟨s', h', heq⟩ := Option.map_eq_some_iff.mp hprogress.symm
  have hpub : s'.published = s.published := congrArg Progress.published heq
  refine ⟨s', h', hpub, fun k => ?_⟩
  by_cases hk : Managed k
  · obtain ⟨hl, ha⟩ := managed_agree h h' hpub.symm hk
    exact ⟨hl.symm, ha.symm⟩
  · obtain ⟨hl, ha⟩ := others_agree h h' hsame hoff hk
    exact ⟨hl.symm, ha.symm⟩

/-- A probe of the node ends and an operator labels it before the daemon reads the node, or
between two attempts, or after. -/
theorem interleavings_agree_stale :
    ∃ s', run (start staleNode) [.get emptyCycle, .attempt .rejected, .foreign teamWrite,
        .attempt .accepted, .probe (.pair "node-b" "2026-05-07T12:34:56Z" .timeout)] = some s' ∧
      s'.published = some emptyCycle ∧
      s'.node.labelAt "accel.lunnova.dev/vendor.amd.count" = none ∧
      s'.node.labelAt "example.org/team" = some "ml" := by
  have hoff : KeepOff [.probe (.pair "node-b" "2026-05-07T12:34:56Z" .timeout),
      .foreign teamWrite, .get emptyCycle, .attempt .rejected, .attempt .accepted] := by
    intro w hw k _
    simp only [List.mem_cons, reduceCtorEq, Event.foreign.injEq, List.not_mem_nil, false_or,
      or_false] at hw
    rw [hw]
    rfl
  obtain ⟨s', h', hpub, hagree⟩ := interleavings_agree staleNode
    [.probe (.pair "node-b" "2026-05-07T12:34:56Z" .timeout), .foreign teamWrite,
      .get emptyCycle, .attempt .rejected, .attempt .accepted]
    [.get emptyCycle, .attempt .rejected, .foreign teamWrite, .attempt .accepted,
      .probe (.pair "node-b" "2026-05-07T12:34:56Z" .timeout)] _ rfl ⟨rfl, rfl, rfl⟩ hoff
  refine ⟨s', h', hpub, (hagree _).1.trans ?_, (hagree _).1.trans ?_⟩
  · decide +kernel
  · decide +kernel

end Accelrd.K8s
