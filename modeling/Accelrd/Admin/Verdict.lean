import Mathlib.Tactic
import Accelrd.Time
import Accelrd.Prober.Annotations

/-!
`src/admin/k8s.rs`: the verdict the admin shows for a node, read back from what the
prober and the daemon wrote on it.

* `resolveVerdict`: a pair record before a loopback record before the preflight label.
* `Shows`: what a shown record says about a verdict of the prober.
* `shows_readFamily`: a reader that looks up the keys of a family shows the verdict of
  the last body of that family.
* `lastProbe_shows`: the prober and the admin agree, whatever was on the node.
-/

namespace Accelrd.Admin

open Std Kube
open Prober (Keys Verdict buildBody patchPair patchLoopback entries verdictEntries partnerEntry
  figure getElem?_buildBody buildBody_eq_none_of_notMem_family)

/-! ### The readers -/

/-- `VerdictSource`. -/
inductive VerdictSource where
  | pair
  | loopback
  | preflight
  deriving DecidableEq

/-- `ProbeRecord` of the admin. -/
structure ProbeRecord where
  at_ : Option String
  bandwidthGbps : Option Binary64
  partner : Option String
  verdict : Option String
  source : VerdictSource
  reason : Option String
  deriving DecidableEq

/-- `ProbeRecord::is_empty`. -/
def ProbeRecord.isEmpty (r : ProbeRecord) : Bool :=
  r.at_.isNone && r.bandwidthGbps.isNone && r.partner.isNone && r.verdict.isNone

/-- `read_optional`. -/
def readOptional (annotations : StrMap) (key : String) : Option String :=
  annotations[key]?.filter fun s => !s.isEmpty

/-- The keys that one of the readers looks up. -/
structure ReadKeys where
  at_ : String
  bwGbps : String
  partner : Option String
  verdict : String
  reason : String

/-- What `read_pair` and `read_loopback` have in common. -/
def readFamily (keys : ReadKeys) (source : VerdictSource) (annotations : StrMap) :
    Option ProbeRecord :=
  let r : ProbeRecord := {
    at_ := readOptional annotations keys.at_
    bandwidthGbps := annotations[keys.bwGbps]?.bind Binary64.parse
    partner := keys.partner.bind (readOptional annotations)
    verdict := readOptional annotations keys.verdict
    source := source
    reason := readOptional annotations keys.reason }
  if r.isEmpty then none else some r

/-- The keys of `read_pair`. -/
def ReadKeys.pair : ReadKeys where
  at_ := "accel-test.lunnova.dev/last-rack-at"
  bwGbps := "accel-test.lunnova.dev/last-rack-bw-gbps"
  partner := some "accel-test.lunnova.dev/last-rack-partner"
  verdict := "accel-test.lunnova.dev/last-rack-verdict"
  reason := "accel-test.lunnova.dev/last-rack-reason"

/-- The keys of `read_loopback`. -/
def ReadKeys.loopback : ReadKeys where
  at_ := "accel-test.lunnova.dev/last-loopback-at"
  bwGbps := "accel-test.lunnova.dev/last-loopback-bw-gbps"
  partner := none
  verdict := "accel-test.lunnova.dev/last-loopback-verdict"
  reason := "accel-test.lunnova.dev/last-loopback-reason"

/-- `read_pair`. -/
def readPair (annotations : StrMap) : Option ProbeRecord :=
  readFamily ReadKeys.pair .pair annotations

/-- `read_loopback`. -/
def readLoopback (annotations : StrMap) : Option ProbeRecord :=
  readFamily ReadKeys.loopback .loopback annotations

/-- `read_preflight`. -/
def readPreflight (labels annotations : StrMap) : Option ProbeRecord :=
  labels["accel-ready.lunnova.dev/inference"]?.map fun inference => {
    at_ := readOptional annotations "accel-ready.lunnova.dev/last-check"
    bandwidthGbps := none
    partner := none
    verdict := match inference with
      | "true" => some "ok"
      | "false" => some "fail"
      | other => some other
    source := .preflight
    reason := readOptional annotations "accel-ready.lunnova.dev/failed" }

/-- `resolve_verdict`. -/
def resolveVerdict (annotations labels : StrMap) : Option ProbeRecord :=
  match readPair annotations with
  | some rec => some rec
  | none =>
      match readLoopback annotations with
      | some rec => some rec
      | none => readPreflight labels annotations

/-- `last_probe` of `NodeView::from_node`. -/
def lastProbe (m : ObjectMeta) : Option ProbeRecord :=
  resolveVerdict (m.annotations.getD ∅) (m.labels.getD ∅)

/-! ### What a record should say -/

/-- The reason the prober gives for a verdict. -/
def verdictReason : Verdict → Option String
  | .ok _ => none
  | .fail reason => some reason
  | .timeout => some "probe pod did not terminate before timeout"

/-- The bandwidth the prober prints for a verdict. -/
def verdictBandwidth : Verdict → Option String
  | .ok rec => rec.bwAvgGbps.map (Binary64.toFixed 2)
  | .fail _ => none
  | .timeout => none

/-- Verdicts with something to show: a successful probe has measured a bandwidth, and a
failed one has a reason. -/
def Presentable : Verdict → Prop
  | .ok rec => rec.bwAvgGbps.isSome
  | .fail reason => reason ≠ ""
  | .timeout => True

/-- The record shows this verdict, of a probe of this kind, at this time. -/
structure Shows (source : VerdictSource) (now : String) (partner : Option String)
    (verdict : Verdict) (rec : ProbeRecord) : Prop where
  source_eq : rec.source = source
  at_eq : rec.at_ = some now
  partner_eq : rec.partner = partner
  verdict_eq : rec.verdict = some verdict.label
  reason_eq : rec.reason = verdictReason verdict
  reason_none_iff : rec.reason = none ↔ ∃ r, verdict = .ok r
  bandwidth_eq : rec.bandwidthGbps = (verdictBandwidth verdict).bind Binary64.parse
  bandwidth_isSome_iff : rec.bandwidthGbps.isSome ↔ ∃ r, verdict = .ok r

/-! ### Reading a family back -/

lemma readOptional_of_getElem? {annotations : StrMap} {key s : String}
    (h : annotations[key]? = some s) (hs : s ≠ "") : readOptional annotations key = some s := by
  rw [readOptional, h, Option.filter_some, if_pos (by simpa using hs)]

lemma readOptional_of_none {annotations : StrMap} {key : String} (h : annotations[key]? = none) :
    readOptional annotations key = none := by
  rw [readOptional, h, Option.filter_none]

/-- The keys a reader looks up are those the writer of the family uses. -/
structure ReadKeys.Of (r : ReadKeys) (keys : Keys) : Prop where
  at_eq : r.at_ = keys.lastAt
  bwGbps_eq : r.bwGbps = keys.lastBwAvg
  partner_eq : r.partner = keys.lastPartner
  verdict_eq : r.verdict = keys.lastVerdict
  reason_eq : r.reason = keys.lastReason

lemma ReadKeys.pair_of : ReadKeys.pair.Of Keys.rack := ⟨rfl, rfl, rfl, rfl, rfl⟩

lemma ReadKeys.loopback_of : ReadKeys.loopback.Of Keys.loopback := ⟨rfl, rfl, rfl, rfl, rfl⟩

/-- An annotation that the last body mentions. -/
lemma getElem?_apply_buildBody {keys : Keys} {partner : Option String} {now : String}
    {verdict : Verdict} {k : String} {v : Option String} (annotations : StrMap)
    (h : (k, v) ∈ entries keys partner now verdict) :
    (MergePatch.apply annotations (buildBody keys partner now verdict))[k]? = v := by
  rw [MergePatch.getElem?_apply, getElem?_buildBody h, Option.getD_some]

section Family

variable {keys : Keys} {partner : Option String} {now : String} {verdict : Verdict}
variable (annotations : StrMap)

lemma mem_entries_of_mem_verdictEntries {e : String × Option String}
    (h : e ∈ verdictEntries keys verdict) : e ∈ entries keys partner now verdict :=
  List.mem_cons_of_mem _ (List.mem_append_right _ h)

lemma readOptional_verdict :
    readOptional (MergePatch.apply annotations (buildBody keys partner now verdict))
      keys.lastVerdict = some verdict.label := by
  refine readOptional_of_getElem? (getElem?_apply_buildBody annotations
    (Prober.lastVerdict_mem_entries keys partner now verdict)) ?_
  cases verdict <;> simp [Verdict.label]

lemma readOptional_reason (hv : Presentable verdict) :
    readOptional (MergePatch.apply annotations (buildBody keys partner now verdict))
      keys.lastReason = verdictReason verdict := by
  have hmem : (keys.lastReason, verdictReason verdict) ∈ verdictEntries keys verdict := by
    cases verdict <;> simp [verdictEntries, verdictReason]
  have hget := getElem?_apply_buildBody annotations
    (@mem_entries_of_mem_verdictEntries keys partner now verdict _ hmem)
  cases verdict with
  | ok rec => exact readOptional_of_none hget
  | fail reason => exact readOptional_of_getElem? hget hv
  | timeout => exact readOptional_of_getElem? hget (by decide)

lemma getElem?_bandwidth (hv : Presentable verdict) :
    (MergePatch.apply annotations (buildBody keys partner now verdict))[keys.lastBwAvg]?
      = verdictBandwidth verdict := by
  refine getElem?_apply_buildBody annotations (mem_entries_of_mem_verdictEntries ?_)
  cases verdict with
  | ok rec =>
      obtain ⟨x, hx⟩ := Option.isSome_iff_exists.mp hv
      simp [verdictEntries, verdictBandwidth, figure, hx]
  | fail reason => simp [verdictEntries, verdictBandwidth]
  | timeout => simp [verdictEntries, verdictBandwidth]

lemma readOptional_partner (hpartner : keys.lastPartner.isSome ↔ partner.isSome)
    (hne : partner ≠ some "") :
    (keys.lastPartner.bind (readOptional (MergePatch.apply annotations
      (buildBody keys partner now verdict)))) = partner := by
  cases hk : keys.lastPartner with
  | none =>
      rw [hk] at hpartner
      exact (Option.not_isSome_iff_eq_none.mp fun h => by simpa using hpartner.mpr h).symm
  | some key =>
      obtain ⟨p, rfl⟩ := Option.isSome_iff_exists.mp (hpartner.mp (by rw [hk]; rfl))
      refine readOptional_of_getElem? (getElem?_apply_buildBody annotations ?_) (by simpa using hne)
      simp [entries, partnerEntry, hk]

/-- A family that is read back with the writer's keys shows the verdict of its last body. -/
theorem shows_readFamily {read : ReadKeys} (hread : read.Of keys) (source : VerdictSource)
    (hpartner : keys.lastPartner.isSome ↔ partner.isSome) (hne : partner ≠ some "")
    (hnow : now ≠ "") (hv : Presentable verdict) :
    ∃ rec, readFamily read source (MergePatch.apply annotations
      (buildBody keys partner now verdict)) = some rec ∧ Shows source now partner verdict rec := by
  have hat : readOptional (MergePatch.apply annotations (buildBody keys partner now verdict))
      keys.lastAt = some now :=
    readOptional_of_getElem? (getElem?_apply_buildBody annotations List.mem_cons_self) hnow
  refine ⟨⟨some now, (verdictBandwidth verdict).bind Binary64.parse, partner,
    some verdict.label, source, verdictReason verdict⟩, ?_, ?_⟩
  · rw [readFamily, hread.at_eq, hread.bwGbps_eq, hread.partner_eq, hread.verdict_eq,
      hread.reason_eq, hat, getElem?_bandwidth annotations hv,
      readOptional_partner annotations hpartner hne, readOptional_verdict,
      readOptional_reason annotations hv]
    rfl
  · refine ⟨rfl, rfl, rfl, rfl, rfl, ?_, rfl, ?_⟩
    · cases verdict <;> simp [verdictReason]
    · cases verdict with
      | ok rec =>
          obtain ⟨x, hx⟩ := Option.isSome_iff_exists.mp hv
          refine iff_of_true ?_ ⟨rec, rfl⟩
          rw [verdictBandwidth, hx]
          exact Binary64.isSome_parse_toFixed 2 x
      | fail reason => simp [verdictBandwidth]
      | timeout => simp [verdictBandwidth]

end Family

/-! ### Agreement -/

/-- The keys that decide whether there is a record. -/
def ReadKeys.deciding (keys : ReadKeys) : List String :=
  keys.at_ :: keys.bwGbps :: keys.verdict :: keys.partner.toList

/-- A family without these keys has no record. -/
lemma readFamily_eq_none {keys : ReadKeys} {source : VerdictSource} {annotations : StrMap}
    (h : ∀ k ∈ keys.deciding, annotations[k]? = none) :
    readFamily keys source annotations = none := by
  unfold ReadKeys.deciding at h
  have hpartner : keys.partner.bind (readOptional annotations) = none := by
    cases hk : keys.partner with
    | none => rfl
    | some key => exact readOptional_of_none (h key (by simp [hk]))
  rw [readFamily, readOptional_of_none (h keys.at_ (by simp)), h keys.bwGbps (by simp), hpartner,
    readOptional_of_none (h keys.verdict (by simp))]
  rfl

/-- The annotations of a node after one body. -/
lemma annotations_merge (m : ObjectMeta) (body : MergePatch String String) :
    (m.merge { annotations := body }).annotations.getD ∅
      = MergePatch.apply (m.annotations.getD ∅) body := rfl

/-- A pair record goes before everything else. -/
lemma lastProbe_pair (m : ObjectMeta) {partner now : String} {verdict : Verdict}
    (hne : partner ≠ "") (hnow : now ≠ "") (hv : Presentable verdict) :
    ∃ rec, lastProbe (m.merge { annotations := buildBody Keys.rack (some partner) now verdict })
      = some rec ∧ Shows .pair now (some partner) verdict rec := by
  obtain ⟨rec, hrec, hshows⟩ := @shows_readFamily Keys.rack (some partner) now verdict
    (m.annotations.getD ∅) ReadKeys.pair ReadKeys.pair_of .pair (by simp [Keys.rack])
    (by simpa using hne) hnow hv
  refine ⟨rec, ?_, hshows⟩
  rw [lastProbe, annotations_merge, resolveVerdict, readPair, hrec]

/-- Without a pair record, a loopback record goes before the preflight label. -/
lemma lastProbe_loopback (m : ObjectMeta) {now : String} {verdict : Verdict}
    (hnone : ∀ k ∈ ReadKeys.pair.deciding, m.annotationAt k = none)
    (hnow : now ≠ "") (hv : Presentable verdict) :
    ∃ rec, lastProbe (m.merge { annotations := buildBody Keys.loopback none now verdict })
      = some rec ∧ Shows .loopback now none verdict rec := by
  obtain ⟨rec, hrec, hshows⟩ := @shows_readFamily Keys.loopback none now verdict
    (m.annotations.getD ∅) ReadKeys.loopback ReadKeys.loopback_of .loopback
    (by simp [Keys.loopback]) (by simp) hnow hv
  refine ⟨rec, ?_, hshows⟩
  have hpair : readPair (MergePatch.apply (m.annotations.getD ∅)
      (buildBody Keys.loopback none now verdict)) = none := by
    refine readFamily_eq_none fun k hk => ?_
    have hother : ∀ k ∈ ReadKeys.pair.deciding, k ∉ Keys.loopback.family := by decide
    rw [MergePatch.getElem?_apply, buildBody_eq_none_of_notMem_family (hother k hk)]
    exact hnone k hk
  rw [lastProbe, annotations_merge, resolveVerdict, hpair, readLoopback, hrec]

/-- **The prober and the admin agree.** Whatever was on the two nodes of a probe before,
the admin shows on each of them the verdict of the probe, its time and the other node;
and a loopback probe of a node that has no pair record, whatever its labels say. -/
theorem lastProbe_shows (clock : ℕ) (verdict : Verdict) (hv : Presentable verdict) (n : Node) :
    (∀ a b : String, a ≠ b → a ≠ "" → b ≠ "" →
      (n.isNamed a → ∃ rec,
        lastProbe (n.receive (patchPair (Time.nowRfc3339 clock) a b verdict)).metadata = some rec ∧
          Shows .pair (Time.nowRfc3339 clock) (some b) verdict rec) ∧
      (n.isNamed b → ∃ rec,
        lastProbe (n.receive (patchPair (Time.nowRfc3339 clock) a b verdict)).metadata = some rec ∧
          Shows .pair (Time.nowRfc3339 clock) (some a) verdict rec)) ∧
    (∀ a : String, n.isNamed a →
      (∀ k ∈ ["accel-test.lunnova.dev/last-rack-at", "accel-test.lunnova.dev/last-rack-bw-gbps",
        "accel-test.lunnova.dev/last-rack-partner", "accel-test.lunnova.dev/last-rack-verdict"],
        n.metadata.annotationAt k = none) →
      ∃ rec, lastProbe (n.receive (patchLoopback (Time.nowRfc3339 clock) a verdict)).metadata
        = some rec ∧ Shows .loopback (Time.nowRfc3339 clock) none verdict rec) := by
  have hnow := Time.nowRfc3339_ne_empty clock
  refine ⟨fun a b hab ha hb => ?_, fun a hn hnone => ?_⟩
  · have hnd : ((patchPair (Time.nowRfc3339 clock) a b verdict).map Prod.fst).Nodup := by
      simpa [patchPair] using hab
    refine ⟨fun hn => ?_, fun hn => ?_⟩
    · rw [Node.receive_of_mem hnd List.mem_cons_self hn]
      exact lastProbe_pair n.metadata hb hnow hv
    · rw [Node.receive_of_mem hnd (List.mem_cons_of_mem _ List.mem_cons_self) hn]
      exact lastProbe_pair n.metadata ha hnow hv
  · have hnd : ((patchLoopback (Time.nowRfc3339 clock) a verdict).map Prod.fst).Nodup :=
      List.nodup_singleton _
    rw [Node.receive_of_mem hnd List.mem_cons_self hn]
    refine lastProbe_loopback n.metadata (fun k hk => hnone k ?_) hnow hv
    revert k
    decide

/-- A node that was last seen to pass its preflight checks. -/
def readyNode : Node where
  metadata := {
    name := some "node-a"
    labels := some (ExtTreeMap.ofList [("accel-ready.lunnova.dev/inference", "true")]) }
  status := none

/-- A failed probe of two nodes, or of one that passes its preflight checks. -/
theorem lastProbe_shows_fail :
    (∃ rec, lastProbe (readyNode.receive (patchPair (Time.nowRfc3339 1778157296) "node-a" "node-b"
        (.fail "boom"))).metadata = some rec ∧
      Shows .pair (Time.nowRfc3339 1778157296) (some "node-b") (.fail "boom") rec) ∧
    ∃ rec, lastProbe (readyNode.receive (patchLoopback (Time.nowRfc3339 1778157296) "node-a"
        (.fail "boom"))).metadata = some rec ∧
      Shows .loopback (Time.nowRfc3339 1778157296) none (.fail "boom") rec := by
  obtain ⟨hpair, hloopback⟩ :=
    lastProbe_shows 1778157296 (.fail "boom") (by decide : "boom" ≠ "") readyNode
  exact ⟨(hpair "node-a" "node-b" (by decide) (by decide) (by decide)).1 rfl,
    hloopback "node-a" rfl (by decide)⟩

end Accelrd.Admin
