import Mathlib.Tactic
import Accelrd.K8s.Interleavings
import Accelrd.Telemetry.Cycle

/-!
What the console shows of a node (`resolve_verdict` of `src/admin/k8s.rs`) after any history
of the node: cycles of the daemon, probes, and writes by others, in any order.

* `Report`, `lastReport`: what the prober has said about a node, and the last of it from
  either kind of probe.
* `readFamily_afterWrites`: a family shows the last report of its kind, and what it showed
  before as long as there is none.
* `ShowsHistory`: the record that a history calls for. Pair probes go before loopback
  probes, and these before the last cycle that was published.
* `showsHistory_run`: the console shows it in every state that a run reaches.
-/

namespace Accelrd.Admin

open Std Kube K8s Telemetry
open Prober (Keys Write Verdict afterWrites buildBody buildBody_eq_none_of_notMem_family)

/-! ### Reports -/

/-- What a patch of the prober says about a node. -/
structure Report where
  source : VerdictSource
  partner : Option String
  now : String
  verdict : Verdict

/-- The report of a patch. -/
def report : Write → Report
  | .pair partner now verdict => ⟨.pair, some partner, now, verdict⟩
  | .loopback now verdict => ⟨.loopback, none, now, verdict⟩

/-- The last report of a kind. -/
def lastReport (source : VerdictSource) (ws : List Write) : Option Report :=
  ((ws.map report).filter fun r => r.source = source).getLast?

/-- A report that names its partner and its time, with something to show. -/
structure Report.Readable (r : Report) : Prop where
  partner_ne : r.partner ≠ some ""
  now_ne : r.now ≠ ""
  presentable : Presentable r.verdict

lemma lastReport_append_singleton (source : VerdictSource) (ws : List Write) (w : Write) :
    lastReport source (ws ++ [w]) =
      if (report w).source = source then some (report w) else lastReport source ws := by
  by_cases h : (report w).source = source <;> simp [lastReport, h]

/-! ### A family after its writes -/

/-- The keys that a reader looks at. -/
def ReadKeys.all (keys : ReadKeys) : List String := keys.reason :: keys.deciding

/-- A reader sees its keys only. -/
lemma readFamily_congr {keys : ReadKeys} (source : VerdictSource)
    {annotations annotations' : StrMap} (h : ∀ k ∈ keys.all, annotations[k]? = annotations'[k]?) :
    readFamily keys source annotations = readFamily keys source annotations' := by
  have hread {k : String} (hk : k ∈ keys.all) :
      readOptional annotations k = readOptional annotations' k := by
    rw [readOptional, readOptional, h k hk]
  have hpartner : keys.partner.bind (readOptional annotations) =
      keys.partner.bind (readOptional annotations') := by
    cases hk : keys.partner with
    | none => rfl
    | some key => exact hread (by simp [ReadKeys.all, ReadKeys.deciding, hk])
  rw [readFamily, readFamily, hpartner, hread (k := keys.at_) (by simp [ReadKeys.all,
    ReadKeys.deciding]), hread (k := keys.verdict) (by simp [ReadKeys.all, ReadKeys.deciding]),
    hread (k := keys.reason) (by simp [ReadKeys.all]),
    h keys.bwGbps (by simp [ReadKeys.all, ReadKeys.deciding])]

/-- A kind of probe: its reader, and the keys of its writer. -/
structure Family where
  source : VerdictSource
  read : ReadKeys
  keys : Keys
  reads : read.Of keys
  keys_eq : ∀ w, (report w).source = source → w.keys = keys
  partner_iff : ∀ w, (report w).source = source →
    (keys.lastPartner.isSome ↔ (report w).partner.isSome)
  apart : ∀ w, (report w).source ≠ source → ∀ k ∈ read.all, k ∉ w.keys.family
  tested : ∀ k ∈ read.all, Text.startsWith k testPrefix

lemma keys_of_source_pair (w : Write) (h : (report w).source = .pair) : w.keys = Keys.rack := by
  cases w with
  | pair partner now verdict => rfl
  | loopback now verdict => simp [report] at h

lemma keys_of_source_loopback (w : Write) (h : (report w).source = .loopback) :
    w.keys = Keys.loopback := by
  cases w with
  | pair partner now verdict => simp [report] at h
  | loopback now verdict => rfl

lemma partner_of_source_pair (w : Write) (h : (report w).source = .pair) :
    Keys.rack.lastPartner.isSome ↔ (report w).partner.isSome := by
  cases w with
  | pair partner now verdict => simp [report, Keys.rack]
  | loopback now verdict => simp [report] at h

lemma partner_of_source_loopback (w : Write) (h : (report w).source = .loopback) :
    Keys.loopback.lastPartner.isSome ↔ (report w).partner.isSome := by
  cases w with
  | pair partner now verdict => simp [report] at h
  | loopback now verdict => simp [report, Keys.loopback]

/-- What the reader of the pair probes looks at no loopback probe writes. -/
lemma apart_of_source_pair (w : Write) (h : (report w).source ≠ .pair) :
    ∀ k ∈ ReadKeys.pair.all, k ∉ w.keys.family := by
  cases w with
  | pair partner now verdict => exact absurd rfl h
  | loopback now verdict =>
      have hapart : ∀ k ∈ ReadKeys.pair.all, k ∉ Keys.loopback.family := by decide
      exact hapart

lemma apart_of_source_loopback (w : Write) (h : (report w).source ≠ .loopback) :
    ∀ k ∈ ReadKeys.loopback.all, k ∉ w.keys.family := by
  cases w with
  | pair partner now verdict =>
      have hapart : ∀ k ∈ ReadKeys.loopback.all, k ∉ Keys.rack.family := by decide
      exact hapart
  | loopback now verdict => exact absurd rfl h

lemma tested_pair : ∀ k ∈ ReadKeys.pair.all, Text.startsWith k testPrefix := by decide +kernel

lemma tested_loopback : ∀ k ∈ ReadKeys.loopback.all, Text.startsWith k testPrefix := by
  decide +kernel

/-- The pair probes. -/
def Family.pair : Family where
  source := .pair
  read := ReadKeys.pair
  keys := Keys.rack
  reads := ReadKeys.pair_of
  keys_eq := keys_of_source_pair
  partner_iff := partner_of_source_pair
  apart := apart_of_source_pair
  tested := tested_pair

/-- The loopback probes. -/
def Family.loopback : Family where
  source := .loopback
  read := ReadKeys.loopback
  keys := Keys.loopback
  reads := ReadKeys.loopback_of
  keys_eq := keys_of_source_loopback
  partner_iff := partner_of_source_loopback
  apart := apart_of_source_loopback
  tested := tested_loopback

lemma body_eq (w : Write) :
    w.body = buildBody w.keys (report w).partner (report w).now (report w).verdict := by
  cases w <;> rfl

/-- What a family shows once `ws` were written, if it showed `former` before. -/
structure Family.ShowsLast (f : Family) (ws : List Write) (former shown : Option ProbeRecord) :
    Prop where
  written : ∀ r, lastReport f.source ws = some r →
    ∃ rec, shown = some rec ∧ Shows f.source r.now r.partner r.verdict rec
  unwritten : lastReport f.source ws = none → shown = former

/-- **A family shows the last report of its kind**, whatever was written in between. -/
theorem readFamily_afterWrites (f : Family) (prior : StrMap) (ws : List Write)
    (hws : ∀ w ∈ ws, (report w).Readable) :
    f.ShowsLast ws (readFamily f.read f.source prior)
      (readFamily f.read f.source (afterWrites prior ws)) := by
  induction ws using List.reverseRecOn with
  | nil => exact ⟨fun r h => by simp [lastReport] at h, fun _ => rfl⟩
  | append_singleton ws w ih =>
      have ih := ih fun w' hw' => hws w' (List.mem_append_left _ hw')
      have hw := hws w (List.mem_append_right _ (List.mem_singleton_self w))
      rw [Prober.afterWrites_append_singleton]
      by_cases hsource : (report w).source = f.source
      · have hlast : lastReport f.source (ws ++ [w]) = some (report w) := by
          rw [lastReport_append_singleton, if_pos hsource]
        refine ⟨fun r hr => ?_, fun hnone => by simp [hlast] at hnone⟩
        obtain rfl := Option.some.inj (hlast.symm.trans hr)
        rw [body_eq, f.keys_eq w hsource]
        exact shows_readFamily _ f.reads f.source (f.partner_iff w hsource) hw.partner_ne
          hw.now_ne hw.presentable
      · have hlast : lastReport f.source (ws ++ [w]) = lastReport f.source ws := by
          rw [lastReport_append_singleton, if_neg hsource]
        have hsame : readFamily f.read f.source (MergePatch.apply (afterWrites prior ws) w.body) =
            readFamily f.read f.source (afterWrites prior ws) := by
          refine readFamily_congr f.source fun k hk => ?_
          rw [MergePatch.getElem?_apply, body_eq,
            buildBody_eq_none_of_notMem_family (f.apart w hsource k hk), Option.getD_none]
        rw [hsame]
        exact ⟨fun r hr => ih.written r (hlast ▸ hr), fun hnone => ih.unwritten (hlast ▸ hnone)⟩

/-! ### The node after a run -/

/-- The results of the checks of a cycle. -/
def cycleResults (c : Cycle) : List (String × Status) :=
  c.checks.flatMap (PreflightCheck.results c.accelerators)

/-- The record is that of a cycle: its time, its verdict and its reason. -/
structure ShowsCycle (c : Cycle) (m : ObjectMeta) (rec : ProbeRecord) : Prop where
  source_eq : rec.source = .preflight
  at_eq : rec.at_ = some (Time.nowRfc3339 c.clock)
  bandwidth_eq : rec.bandwidthGbps = none
  partner_eq : rec.partner = none
  agrees : Agrees (cycleResults c) m rec

/-- The record of a family on a node. -/
def Family.record (f : Family) (m : ObjectMeta) : Option ProbeRecord :=
  readFamily f.read f.source (m.annotations.getD ∅)

lemma lastProbe_eq (m : ObjectMeta) :
    lastProbe m = (Family.pair.record m).or ((Family.loopback.record m).or
      (readPreflight (m.labels.getD ∅) (m.annotations.getD ∅))) := by
  have hpair : readPair (m.annotations.getD ∅) = Family.pair.record m := rfl
  have hloopback : readLoopback (m.annotations.getD ∅) = Family.loopback.record m := rfl
  rw [lastProbe, resolveVerdict, hpair, hloopback]
  cases Family.pair.record m with
  | some rec => rfl
  | none => cases Family.loopback.record m <;> rfl

/-- The record that the console has to show of the node `m`, which had the metadata
`initial` before the prober wrote `ws` and the daemon published `published`. -/
structure ShowsHistory (initial : ObjectMeta) (ws : List Write) (published : Option Cycle)
    (m : ObjectMeta) (shown : Option ProbeRecord) : Prop where
  pair : ∀ r, lastReport .pair ws = some r →
    ∃ rec, shown = some rec ∧ Shows .pair r.now r.partner r.verdict rec
  formerPair : lastReport .pair ws = none → ∀ rec, Family.pair.record initial = some rec →
    shown = some rec
  loopback : lastReport .pair ws = none → Family.pair.record initial = none →
    ∀ r, lastReport .loopback ws = some r →
      ∃ rec, shown = some rec ∧ Shows .loopback r.now r.partner r.verdict rec
  formerLoopback : lastReport .pair ws = none → Family.pair.record initial = none →
    lastReport .loopback ws = none → ∀ rec, Family.loopback.record initial = some rec →
      shown = some rec
  preflight : ws = [] → Family.pair.record initial = none → Family.loopback.record initial = none →
    ∀ c, published = some c → ∃ rec, shown = some rec ∧ ShowsCycle c m rec
  untouched : ws = [] → published = none → shown = lastProbe initial

lemma readPreflight_eq_some {labels annotations : StrMap} {rec : ProbeRecord}
    (h : readPreflight labels annotations = some rec) :
    rec.source = .preflight ∧ rec.bandwidthGbps = none ∧ rec.partner = none ∧
      rec.at_ = readOptional annotations "accel-ready.lunnova.dev/last-check" := by
  obtain ⟨inference, -, rfl⟩ := Option.map_eq_some_iff.mp h
  exact ⟨rfl, rfl, rfl, rfl⟩

lemma getElem?_lastCheck (outcomes : List Status) (failedChecks : List String)
    (labelBase : Topology.LabelSet) (now : ℕ) :
    (publishReadiness outcomes failedChecks labelBase now).annotations[
      "accel-ready.lunnova.dev/last-check"]? = some (Time.nowRfc3339 now) := by
  dsimp only [publishReadiness]
  split_ifs
  · exact ExtTreeMap.getElem?_insert_self
  · rw [ExtTreeMap.getElem?_insert, if_neg (by decide), ExtTreeMap.getElem?_insert_self]

/-- The preflight record of a node with the keys of a cycle. -/
lemma readPreflight_of_published {c : Cycle} {m : ObjectMeta}
    (hnames : ∀ check ∈ c.checks, check.name ≠ "")
    (h : ∀ k, Managed k →
      m.labelAt k = c.desired.labels[k]? ∧ m.annotationAt k = c.desired.annotations[k]?) :
    ∃ rec, readPreflight (m.labels.getD ∅) (m.annotations.getD ∅) = some rec ∧
      ShowsCycle c m rec := by
  have hdesired : c.desired = _ := runCycle_eq_publishReadiness c.checks c.accelerators
    (Topology.build c.sysfs c.topology c.accelerators) c.clock
  have hlast : m.annotationAt "accel-ready.lunnova.dev/last-check" =
      some (Time.nowRfc3339 c.clock) := by
    rw [(h _ (by decide)).2, hdesired, getElem?_lastCheck]
  obtain ⟨rec, hrec, hagrees⟩ := agrees_of_keys (ne_empty_of_mem_results hnames)
    ((h _ (by decide)).1.trans (hdesired ▸ getElem?_inference _ _ _ _))
    ((h _ (by decide)).1.trans (hdesired ▸ getElem?_training _ _ _ _))
    ((h _ (by decide)).2.trans (hdesired ▸ getElem?_failed _ _ _ (getElem?_build_failed _ _ _)))
  obtain ⟨hsource, hbandwidth, hpartner, hat⟩ := readPreflight_eq_some hrec
  exact ⟨rec, hrec, hsource,
    hat.trans (readOptional_of_getElem? hlast (Time.nowRfc3339_ne_empty c.clock)), hbandwidth,
    hpartner, hagrees⟩

/-- The preflight record sees three keys of the daemon. -/
lemma readPreflight_congr {m m' : ObjectMeta}
    (h : ∀ k, Managed k → m.labelAt k = m'.labelAt k ∧ m.annotationAt k = m'.annotationAt k) :
    readPreflight (m.labels.getD ∅) (m.annotations.getD ∅) =
      readPreflight (m'.labels.getD ∅) (m'.annotations.getD ∅) := by
  have hlabel : (m.labels.getD ∅)["accel-ready.lunnova.dev/inference"]? =
      (m'.labels.getD ∅)["accel-ready.lunnova.dev/inference"]? := (h _ (by decide)).1
  have hread {k : String} (hk : Managed k) :
      readOptional (m.annotations.getD ∅) k = readOptional (m'.annotations.getD ∅) k :=
    congrArg (Option.filter _) (h k hk).2
  rw [readPreflight, readPreflight, hlabel, hread (by decide), hread (by decide)]

/-- A family on a node that a run has reached. -/
lemma showsLast_run (f : Family) {initial : ObjectMeta} {es : List Event} {s : State}
    (h : run (start initial) es = some s) (hoff : KeepOff es)
    (hprobes : ∀ w, .probe w ∈ es → (report w).Readable) :
    f.ShowsLast (es.filterMap Event.probed) (f.record initial) (f.record s.node) := by
  have hsame : f.record s.node =
      readFamily f.read f.source
        (afterWrites (initial.annotations.getD ∅) (es.filterMap Event.probed)) := by
    refine readFamily_congr f.source fun k hk => ?_
    have htest := f.tested k hk
    have hk' := ((run_inv h).others k (not_managed_of_startsWith htest)).2
    rw [lastWord_eq_afterWrites fun w hw => hoff w hw k htest] at hk'
    exact hk'
  rw [hsame]
  refine readFamily_afterWrites f _ _ fun w hw => ?_
  obtain ⟨e, he, hew⟩ := List.mem_filterMap.mp hw
  cases e with
  | probe w' =>
      obtain rfl := Option.some.inj hew
      exact hprobes w' he
  | _ => simp [Event.probed] at hew

/-- **What the console shows**, in every state that any interleaving of the daemon, the
prober and others reaches: the last pair probe if there was one, else the last loopback
probe, else the cycle that was published last; and what was there before where nothing was
written. -/
theorem showsHistory_run (initial : ObjectMeta) (es : List Event) (s : State)
    (h : run (start initial) es = some s) (hoff : KeepOff es)
    (hprobes : ∀ w, .probe w ∈ es → (report w).Readable)
    (hnames : ∀ c, s.published = some c → ∀ check ∈ c.checks, check.name ≠ "") :
    ShowsHistory initial (es.filterMap Event.probed) s.published s.node (lastProbe s.node) := by
  have hpair := showsLast_run .pair h hoff hprobes
  have hloopback := showsLast_run .loopback h hoff hprobes
  have hunwritten (source : VerdictSource) (hws : es.filterMap Event.probed = []) :
      lastReport source (es.filterMap Event.probed) = none := by
    rw [hws]
    rfl
  rw [lastProbe_eq]
  refine ⟨fun r hr => ?_, fun hnone rec hrec => ?_, fun hnone hformer r hr => ?_,
    fun hnone hformer hnone' rec hrec => ?_, fun hws hformer hformer' c hc => ?_,
    fun hws hnone => ?_⟩
  · obtain ⟨rec, hrec, hshows⟩ := hpair.written r hr
    exact ⟨rec, by rw [hrec, Option.some_or], hshows⟩
  · rw [hpair.unwritten hnone, hrec, Option.some_or]
  · obtain ⟨rec, hrec, hshows⟩ := hloopback.written r hr
    exact ⟨rec, by rw [hpair.unwritten hnone, hformer, Option.none_or, hrec, Option.some_or],
      hshows⟩
  · rw [hpair.unwritten hnone, hformer, Option.none_or, hloopback.unwritten hnone', hrec,
      Option.some_or]
  · obtain ⟨rec, hrec, hshows⟩ := readPreflight_of_published (hnames c hc)
      ((run_inv h).published c hc)
    refine ⟨rec, ?_, hshows⟩
    rw [hpair.unwritten (hunwritten .pair hws), hformer,
      hloopback.unwritten (hunwritten .loopback hws), hformer', hrec, Option.none_or,
      Option.none_or]
  · rw [hpair.unwritten (hunwritten .pair hws), hloopback.unwritten (hunwritten .loopback hws),
      readPreflight_congr fun k hk => unpublished h hnone hk, lastProbe_eq]

/-- A node that is probed with a partner and then on its own, between two cycles, and that
an operator labels in the meantime. -/
def probedBetween : List Event :=
  [.get emptyCycle, .attempt .accepted, .probe (.pair "node-b" "2026-05-07T12:34:56Z" .timeout),
    .foreign teamWrite, .probe (.loopback "2026-05-07T18:34:56Z" (.fail "boom")),
    .get emptyCycle, .attempt .accepted]

/-- The console stays with the pair probe. -/
theorem showsHistory_run_probedBetween :
    ∃ s, run (start staleNode) probedBetween = some s ∧
      ∃ rec, lastProbe s.node = some rec ∧ rec.source = .pair ∧ rec.partner = some "node-b" ∧
        rec.verdict = some "timeout" := by
  refine ⟨_, rfl, ?_⟩
  have hshows := showsHistory_run staleNode probedBetween _ rfl
    (fun w hw k hk => by
      simp only [probedBetween, List.mem_cons, reduceCtorEq, Event.foreign.injEq, List.not_mem_nil,
        false_or, or_false] at hw
      rw [hw]
      rfl)
    (fun w hw => by
      simp only [probedBetween, List.mem_cons, reduceCtorEq, Event.probe.injEq, List.not_mem_nil,
        false_or, or_false] at hw
      rcases hw with rfl | rfl
      · exact ⟨by decide, by decide, trivial⟩
      · exact ⟨by decide, by decide, (by decide : "boom" ≠ "")⟩)
    (fun c hc check hcheck => by
      obtain rfl := Option.some.inj hc
      simp [emptyCycle] at hcheck)
  obtain ⟨rec, hrec, hshows⟩ := hshows.pair
    ⟨.pair, some "node-b", "2026-05-07T12:34:56Z", .timeout⟩ rfl
  exact ⟨rec, hrec, hshows.source_eq, hshows.partner_eq, hshows.verdict_eq⟩

end Accelrd.Admin
