import Mathlib.Tactic
import Mathlib.Data.String.Basic
import Accelrd.Library.Binary64
import Accelrd.Kube

/-!
`src/prober/annotations.rs`: what a probe writes on the nodes it probed.

* `buildBody`, `patchPair`, `patchLoopback`: the patch bodies as the code builds
  them. `entries` lists the insertions of a body in the order of the code.
* `getElem?_buildBody`, `buildBody_eq_none`: what a body says about a key. All
  later modules use bodies through these.
* `forall_mem_keys_iff`: which verdicts speak about their whole key family.
-/

namespace Accelrd.Prober

open Std Kube

/-! ### The two key families -/

/-- `ANN_LAST_AT`. -/
def annLastAt : String := "accel-test.lunnova.dev/last-rack-at"

/-- `ANN_LB_LAST_AT`. -/
def annLbLastAt : String := "accel-test.lunnova.dev/last-loopback-at"

/-- `Keys`: the annotation keys of one kind of probe. They are different strings,
so that the fields of a record do not overwrite each other. -/
structure Keys where
  lastAt : String
  lastPartner : Option String
  lastBwAvg : String
  lastBwPeak : String
  lastMsgRate : String
  lastDevice : String
  lastVerdict : String
  lastReason : String
  distinct : (lastAt :: (lastPartner.toList ++
    [lastVerdict, lastReason, lastDevice, lastBwAvg, lastBwPeak, lastMsgRate])).Nodup

/-- The keys of the family, in the order in which a body mentions them. -/
def Keys.family (keys : Keys) : List String :=
  keys.lastAt :: (keys.lastPartner.toList ++ [keys.lastVerdict, keys.lastReason, keys.lastDevice,
    keys.lastBwAvg, keys.lastBwPeak, keys.lastMsgRate])

/-- `RACK`. -/
def Keys.rack : Keys where
  lastAt := "accel-test.lunnova.dev/last-rack-at"
  lastPartner := some "accel-test.lunnova.dev/last-rack-partner"
  lastBwAvg := "accel-test.lunnova.dev/last-rack-bw-gbps"
  lastBwPeak := "accel-test.lunnova.dev/last-rack-bw-peak-gbps"
  lastMsgRate := "accel-test.lunnova.dev/last-rack-msg-rate-mpps"
  lastDevice := "accel-test.lunnova.dev/last-rack-device"
  lastVerdict := "accel-test.lunnova.dev/last-rack-verdict"
  lastReason := "accel-test.lunnova.dev/last-rack-reason"
  distinct := by decide

/-- `LOOPBACK`. -/
def Keys.loopback : Keys where
  lastAt := "accel-test.lunnova.dev/last-loopback-at"
  lastPartner := none
  lastBwAvg := "accel-test.lunnova.dev/last-loopback-bw-gbps"
  lastBwPeak := "accel-test.lunnova.dev/last-loopback-bw-peak-gbps"
  lastMsgRate := "accel-test.lunnova.dev/last-loopback-msg-rate-mpps"
  lastDevice := "accel-test.lunnova.dev/last-loopback-device"
  lastVerdict := "accel-test.lunnova.dev/last-loopback-verdict"
  lastReason := "accel-test.lunnova.dev/last-loopback-reason"
  distinct := by decide

/-! ### Bodies -/

/-- `results::ProbeRecord`. -/
structure ProbeRecord where
  side : String
  ok : Bool
  server : Option String
  device : String
  bytes : Option ℕ
  bwPeakGbps : Option Binary64
  bwAvgGbps : Option Binary64
  msgRateMpps : Option Binary64
  durationS : Binary64
  message : Option String
  srcRack : Option String
  partnerNode : Option String

/-- `Verdict`. -/
inductive Verdict where
  | ok (record : ProbeRecord)
  | fail (reason : String)
  | timeout

/-- `OwnedVerdict::label`: the verdict as the metric has it. -/
def Verdict.label : Verdict → String
  | .ok _ => "ok"
  | .fail _ => "fail"
  | .timeout => "timeout"

/-- The insertion of an optional figure, printed with `p` digits after the point. -/
def figure (key : String) (p : ℕ) (v : Option Binary64) : List (String × Option String) :=
  (v.map fun x => (key, some (x.toFixed p))).toList

/-- The insertions of the arm of `build_body` for this verdict. -/
def verdictEntries (keys : Keys) : Verdict → List (String × Option String)
  | .ok rec =>
      [(keys.lastVerdict, some "ok"), (keys.lastReason, none),
        (keys.lastDevice, some rec.device)] ++
        (figure keys.lastBwAvg 2 rec.bwAvgGbps ++ (figure keys.lastBwPeak 2 rec.bwPeakGbps ++
          figure keys.lastMsgRate 6 rec.msgRateMpps))
  | .fail reason =>
      [(keys.lastVerdict, some "fail"), (keys.lastReason, some reason), (keys.lastBwAvg, none),
        (keys.lastBwPeak, none), (keys.lastMsgRate, none)]
  | .timeout =>
      [(keys.lastVerdict, some "timeout"),
        (keys.lastReason, some "probe pod did not terminate before timeout"),
        (keys.lastBwAvg, none), (keys.lastBwPeak, none), (keys.lastMsgRate, none)]

/-- The insertion of the partner, for a family that records one. -/
def partnerEntry (keys : Keys) (partner : Option String) : List (String × Option String) :=
  match keys.lastPartner, partner with
  | some key, some p => [(key, some p)]
  | _, _ => []

/-- The insertions of `build_body`, in the order of the code. -/
def entries (keys : Keys) (partner : Option String) (now : String) (verdict : Verdict) :
    List (String × Option String) :=
  (keys.lastAt, some now) :: (partnerEntry keys partner ++ verdictEntries keys verdict)

/-- `build_body`: the annotations of the body. -/
def buildBody (keys : Keys) (partner : Option String) (now : String) (verdict : Verdict) :
    MergePatch String String :=
  ExtTreeMap.ofList (entries keys partner now verdict)

/-- `patch_pair`, when the clock reads `now`: the requests it makes, in order. -/
def patchPair (now a b : String) (verdict : Verdict) : List (String × MetaPatch) :=
  [(a, { annotations := buildBody Keys.rack (some b) now verdict }),
    (b, { annotations := buildBody Keys.rack (some a) now verdict })]

/-- `patch_loopback`. -/
def patchLoopback (now node : String) (verdict : Verdict) : List (String × MetaPatch) :=
  [(node, { annotations := buildBody Keys.loopback none now verdict })]

/-! ### What a body says -/

lemma map_fst_figure_sublist (key : String) (p : ℕ) (v : Option Binary64) :
    ((figure key p v).map Prod.fst).Sublist [key] := by
  cases v with
  | none => exact List.nil_sublist _
  | some x => exact List.Sublist.refl _

lemma map_fst_verdictEntries_sublist (keys : Keys) (verdict : Verdict) :
    ((verdictEntries keys verdict).map Prod.fst).Sublist [keys.lastVerdict, keys.lastReason,
      keys.lastDevice, keys.lastBwAvg, keys.lastBwPeak, keys.lastMsgRate] := by
  cases verdict with
  | ok rec =>
      simp only [verdictEntries, List.map_append, List.map_cons, List.map_nil]
      refine List.Sublist.append (.refl [keys.lastVerdict, keys.lastReason, keys.lastDevice]) ?_
      refine (map_fst_figure_sublist _ _ _).append ?_
      exact (map_fst_figure_sublist _ _ _).append (map_fst_figure_sublist _ _ _)
  | fail reason => exact ((List.Sublist.refl _).cons _).cons_cons _ |>.cons_cons _
  | timeout => exact ((List.Sublist.refl _).cons _).cons_cons _ |>.cons_cons _

lemma map_fst_partnerEntry_sublist (keys : Keys) (partner : Option String) :
    ((partnerEntry keys partner).map Prod.fst).Sublist keys.lastPartner.toList := by
  unfold partnerEntry
  split
  · rename_i h
    rw [h]
    exact List.Sublist.refl _
  · exact List.nil_sublist _

/-- A body speaks about its own family only, and once about each key. -/
lemma map_fst_entries_sublist (keys : Keys) (partner : Option String) (now : String)
    (verdict : Verdict) :
    ((entries keys partner now verdict).map Prod.fst).Sublist keys.family := by
  rw [entries, List.map_cons, List.map_append]
  exact ((map_fst_partnerEntry_sublist keys partner).append
    (map_fst_verdictEntries_sublist keys verdict)).cons_cons _

/-- What a body says about a key it mentions. -/
lemma getElem?_buildBody {keys : Keys} {partner : Option String} {now : String} {verdict : Verdict}
    {k : String} {v : Option String} (h : (k, v) ∈ entries keys partner now verdict) :
    (buildBody keys partner now verdict)[k]? = some v :=
  MergePatch.getElem?_ofList_of_nodup
    (keys.distinct.sublist (map_fst_entries_sublist keys partner now verdict)) h

/-- A body says nothing about the other keys. -/
lemma buildBody_eq_none {keys : Keys} {partner : Option String} {now : String} {verdict : Verdict}
    {k : String} (h : k ∉ (entries keys partner now verdict).map Prod.fst) :
    (buildBody keys partner now verdict)[k]? = none :=
  ExtTreeMap.getElem?_ofList_of_contains_eq_false (by simpa using h)

/-- A body says nothing about keys outside its family. -/
lemma buildBody_eq_none_of_notMem_family {keys : Keys} {partner : Option String} {now : String}
    {verdict : Verdict} {k : String} (h : k ∉ keys.family) :
    (buildBody keys partner now verdict)[k]? = none :=
  buildBody_eq_none fun hk => h ((map_fst_entries_sublist keys partner now verdict).subset hk)

@[simp] lemma buildBody_lastAt (keys : Keys) (partner : Option String) (now : String)
    (verdict : Verdict) : (buildBody keys partner now verdict)[keys.lastAt]? = some (some now) :=
  getElem?_buildBody List.mem_cons_self

/-- A body has the verdict as the metric has it. -/
lemma lastVerdict_mem_entries (keys : Keys) (partner : Option String) (now : String)
    (verdict : Verdict) :
    (keys.lastVerdict, some verdict.label) ∈ entries keys partner now verdict := by
  refine List.mem_cons_of_mem _ (List.mem_append_right _ ?_)
  cases verdict <;> exact List.mem_cons_self

/-! ### Whose word is complete -/

/-- A successful probe that measured all three figures. -/
def Verdict.Complete : Verdict → Prop
  | .ok rec => rec.bwAvgGbps.isSome ∧ rec.bwPeakGbps.isSome ∧ rec.msgRateMpps.isSome
  | .fail _ => False
  | .timeout => False

lemma mem_map_fst_figure {key k : String} {p : ℕ} {v : Option Binary64} :
    k ∈ (figure key p v).map Prod.fst ↔ v.isSome ∧ k = key := by
  cases v <;> simp [figure]

lemma map_fst_partnerEntry {keys : Keys} {partner : Option String}
    (h : keys.lastPartner.isSome → partner.isSome) :
    (partnerEntry keys partner).map Prod.fst = keys.lastPartner.toList := by
  unfold partnerEntry
  cases hk : keys.lastPartner with
  | none => rfl
  | some key =>
      obtain ⟨p, rfl⟩ := Option.isSome_iff_exists.mp (h (by rw [hk]; rfl))
      rfl

/-- Only a successful probe mentions the device. -/
lemma notMem_entries_device {keys : Keys} {partner : Option String} {now : String}
    {verdict : Verdict} (h : ∀ rec, verdict ≠ .ok rec) :
    keys.lastDevice ∉ (entries keys partner now verdict).map Prod.fst := by
  intro hk
  have hnd := keys.distinct
  have hsub := (map_fst_partnerEntry_sublist keys partner).subset
  cases verdict with
  | ok rec => exact h rec rfl
  | fail reason =>
      simp only [entries, verdictEntries, List.map_cons, List.map_append, List.map_nil] at hk
      grind
  | timeout =>
      simp only [entries, verdictEntries, List.map_cons, List.map_append, List.map_nil] at hk
      grind

/-- A successful probe mentions a figure exactly when it has it. -/
lemma mem_entries_figures (keys : Keys) (partner : Option String) (now : String)
    (rec : ProbeRecord) :
    (keys.lastBwAvg ∈ (entries keys partner now (.ok rec)).map Prod.fst ↔ rec.bwAvgGbps.isSome) ∧
    (keys.lastBwPeak ∈ (entries keys partner now (.ok rec)).map Prod.fst ↔ rec.bwPeakGbps.isSome) ∧
    (keys.lastMsgRate ∈ (entries keys partner now (.ok rec)).map Prod.fst ↔
      rec.msgRateMpps.isSome) := by
  have hnd := keys.distinct
  have hsub := (map_fst_partnerEntry_sublist keys partner).subset
  simp only [entries, verdictEntries, List.map_cons, List.map_append, List.map_nil, List.mem_cons,
    List.mem_append, mem_map_fst_figure]
  grind

/-- **Whose word is complete**: the bodies that speak about every key of their family
are those of the complete verdicts. -/
theorem forall_mem_keys_iff {keys : Keys} {partner : Option String} {now : String}
    {verdict : Verdict} (h : keys.lastPartner.isSome → partner.isSome) :
    (∀ k ∈ keys.family, k ∈ (entries keys partner now verdict).map Prod.fst) ↔
      verdict.Complete := by
  have hdevice : keys.lastDevice ∈ keys.family := by simp [Keys.family]
  cases verdict with
  | ok rec =>
      obtain ⟨havg, hpeak, hrate⟩ := mem_entries_figures keys partner now rec
      refine ⟨fun hall => ⟨havg.mp (hall _ ?_), hpeak.mp (hall _ ?_), hrate.mp (hall _ ?_)⟩,
        fun ⟨h₁, h₂, h₃⟩ k hk => ?_⟩
      iterate 3 simp [Keys.family]
      rw [Keys.family, ← map_fst_partnerEntry h] at hk
      simp only [entries, verdictEntries, List.map_cons, List.map_append, List.map_nil,
        List.mem_cons, List.mem_append, mem_map_fst_figure, h₁, h₂, h₃, true_and,
        List.not_mem_nil, or_false] at hk ⊢
      grind
  | fail reason =>
      exact iff_of_false (fun hall => notMem_entries_device (by simp) (hall _ hdevice)) id
  | timeout =>
      exact iff_of_false (fun hall => notMem_entries_device (by simp) (hall _ hdevice)) id

/-! ### Histories of a node -/

/-- One patch of a node: by `patch_pair`, with this partner, or by `patch_loopback`. -/
inductive Write where
  | pair (partner now : String) (verdict : Verdict)
  | loopback (now : String) (verdict : Verdict)

/-- The body of the patch. -/
def Write.body : Write → MergePatch String String
  | .pair partner now verdict => buildBody Keys.rack (some partner) now verdict
  | .loopback now verdict => buildBody Keys.loopback none now verdict

/-- The family of keys it is about. -/
def Write.keys : Write → Keys
  | .pair .. => Keys.rack
  | .loopback .. => Keys.loopback

/-- The verdict it records. -/
def Write.verdict : Write → Verdict
  | .pair _ _ verdict => verdict
  | .loopback _ verdict => verdict

/-- The annotations of a node after the patches, by RFC 7396. -/
def afterWrites (prior : StrMap) (ws : List Write) : StrMap :=
  ws.foldl (fun m w => MergePatch.apply m w.body) prior

@[simp] lemma afterWrites_append_singleton (prior : StrMap) (ws : List Write) (w : Write) :
    afterWrites prior (ws ++ [w]) = MergePatch.apply (afterWrites prior ws) w.body :=
  List.foldl_append

/-- A patch speaks about every key of its family exactly when its verdict is complete. -/
lemma Write.forall_isSome_iff (w : Write) :
    (∀ k ∈ w.keys.family, w.body[k]?.isSome) ↔ w.verdict.Complete := by
  have hiff (keys : Keys) (partner : Option String) (now : String) (verdict : Verdict)
      (h : keys.lastPartner.isSome → partner.isSome) :
      (∀ k ∈ keys.family, (buildBody keys partner now verdict)[k]?.isSome) ↔
        verdict.Complete := by
    rw [← forall_mem_keys_iff h]
    refine forall₂_congr fun k _ => ⟨fun hk => ?_, fun hk => ?_⟩
    · by_contra hn
      rw [buildBody_eq_none hn] at hk
      simp at hk
    · obtain ⟨⟨_, v⟩, hmem, rfl⟩ := List.mem_map.mp hk
      rw [getElem?_buildBody hmem]
      rfl
  cases w with
  | pair partner now verdict => exact hiff _ _ _ _ fun _ => rfl
  | loopback now verdict => exact hiff _ _ _ _ fun h => h

/-- **No stale data after a complete verdict**, and after no other: the family of the
last patch is the same on any two nodes that received it. -/
theorem family_determined_iff (w : Write) :
    (∀ (prior prior' : StrMap) (ws ws' : List Write), ∀ k ∈ w.keys.family,
      (afterWrites prior (ws ++ [w]))[k]? = (afterWrites prior' (ws' ++ [w]))[k]?) ↔
      w.verdict.Complete := by
  rw [← w.forall_isSome_iff]
  refine ⟨fun hall k hk => ?_, fun hall prior prior' ws ws' k hk => ?_⟩
  · -- a key the patch does not mention is whatever it was before
    by_contra hnone
    have h := hall (ExtTreeMap.ofList [(k, "stale")]) ∅ [] [] k hk
    rw [Option.not_isSome_iff_eq_none] at hnone
    simp [afterWrites, hnone] at h
  · obtain ⟨v, hv⟩ := Option.isSome_iff_exists.mp (hall k hk)
    simp [hv]

/-- The record of a client that sent over `mlx5_0` and measured nothing. -/
def unmeasured : ProbeRecord where
  side := "client"
  ok := true
  server := some "10.0.0.5"
  device := "mlx5_0"
  bytes := some 65536
  bwPeakGbps := none
  bwAvgGbps := none
  msgRateMpps := none
  durationS := Binary64.encode false 0
  message := none
  srcRack := none
  partnerNode := none

/-- A failed probe leaves the device of the probe before it on the node. -/
theorem stale_device :
    (afterWrites ∅ ([.pair "node-b" "2026-05-07T12:00:00Z" (.ok unmeasured)] ++
        [.pair "node-b" "2026-05-07T18:00:00Z" (.fail "boom")]))[
          "accel-test.lunnova.dev/last-rack-device"]? = some "mlx5_0" ∧
      (afterWrites ∅ ([] ++ [.pair "node-b" "2026-05-07T18:00:00Z" (.fail "boom")]))[
          "accel-test.lunnova.dev/last-rack-device"]? = none := by
  decide +kernel

end Accelrd.Prober
