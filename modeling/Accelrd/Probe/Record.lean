import Mathlib.Tactic
import Accelrd.Probe.Perftest
import Accelrd.Prober.Pods

/-!
`src/probe/mod.rs`: the record that a probe prints, and what becomes of it in the prober.

* `buildRecord`, `Record.members`: the record and its fields as they are serialized.
* `deserialize`: the fields as `results::ProbeRecord` wants them.
* `deserialize_members`: the two types agree field by field; a figure that is not finite is
  lost between them.
* `carried_iff`: when the figures of a successful probe reach the annotations.
-/

namespace Accelrd.Probe

open Prober (ProbeRecord Keys buildBody isRecordLine)
open Perftest (Summary FiniteFigures)

/-! ### The record -/

/-- `ProbeMode`. -/
inductive ProbeMode where
  | server
  | client
  deriving DecidableEq

/-- `ProbeMode::slug`. -/
def ProbeMode.slug : ProbeMode → String
  | .server => "server"
  | .client => "client"

/-- `Resolved`, but for the arguments that the record does not show. -/
structure Resolved where
  mode : ProbeMode
  server : Option String
  srcRack : Option String
  partnerNode : Option String

/-- `Record`. -/
structure Record where
  side : String
  ok : Bool
  server : Option String
  device : String
  bytes : Option ℕ
  bwPeakGbps : Option Binary64
  bwAvgGbps : Option Binary64
  msgRateMpps : Option Binary64
  durationS : Binary64
  message : Option String
  srcRack : Option String
  partnerNode : Option String

/-- `Outcome`. -/
inductive Outcome where
  | ok (s : Summary)
  | err (msg : String)

/-- What a run of `ib_send_bw` that exits with success comes to, by `parse_required`. -/
def outcomeOf (stdout : String) : Outcome :=
  match Perftest.parse stdout with
  | some s => .ok s
  | none => .err "perftest output had no parseable summary row"

/-- `build_record`. -/
def buildRecord (args : Resolved) (device : String) (durationS : Binary64) (outcome : Outcome) :
    Record :=
  let common : Record := {
    side := args.mode.slug
    ok := false
    server := args.server
    device := device
    bytes := none
    bwPeakGbps := none
    bwAvgGbps := none
    msgRateMpps := none
    durationS := durationS
    message := none
    srcRack := args.srcRack
    partnerNode := args.partnerNode }
  match outcome with
  | .ok s =>
      { common with
        ok := true
        bytes := some s.bytes
        bwPeakGbps := some s.bwPeakGbps
        bwAvgGbps := some s.bwAvgGbps
        msgRateMpps := some s.msgRateMpps }
  | .err msg => { common with message := some msg }

/-! ### Its JSON -/

/-- The value of a member of a JSON object. Arrays and objects are all the same here, since
no field of a record takes one. -/
inductive Member where
  | null
  | bool (b : Bool)
  | int (n : ℤ)
  | float (x : Binary64)
  | str (s : String)
  | compound

/-- A float, as `serde_json` writes it: `null` unless it is finite. -/
def Member.ofFloat (x : Binary64) : Member := if x.isSpecial then .null else .float x

/-- An optional value. -/
def Member.option {α : Type} (f : α → Member) : Option α → Member
  | none => .null
  | some a => f a

/-- `Serialize` of a record: its fields, in order. -/
def Record.members (r : Record) : List (String × Member) :=
  [("side", .str r.side), ("ok", .bool r.ok), ("server", .option .str r.server),
    ("device", .str r.device), ("bytes", .option (fun n : ℕ => .int n) r.bytes),
    ("bw_peak_gbps", .option .ofFloat r.bwPeakGbps), ("bw_avg_gbps", .option .ofFloat r.bwAvgGbps),
    ("msg_rate_mpps", .option .ofFloat r.msgRateMpps), ("duration_s", .ofFloat r.durationS),
    ("message", .option .str r.message), ("src_rack", .option .str r.srcRack),
    ("partner_node", .option .str r.partnerNode)]

/-- A field of an object: missing, or its value. It must not be there twice. -/
def fieldOf (ms : List (String × Member)) (key : String) : Option (Option Member) :=
  match ms.filter (·.1 = key) with
  | [] => some none
  | [e] => some (some e.2)
  | _ => none

/-- `String`. -/
def asString : Option Member → Option String
  | some (.str s) => some s
  | _ => none

/-- `bool`. -/
def asBool : Option Member → Option Bool
  | some (.bool b) => some b
  | _ => none

/-- `f64`: an integer will do. -/
def asF64 : Option Member → Option Binary64
  | some (.float x) => some x
  | some (.int n) => some (Binary64.ofDecimal (n < 0) n.natAbs 0)
  | _ => none

/-- `u64`. -/
def asU64 : Option Member → Option ℕ
  | some (.int n) => if 0 ≤ n ∧ n < 2 ^ 64 then some n.toNat else none
  | _ => none

/-- `Option<T>`: a missing field and `null` are `None`. -/
def asOption {α : Type} (f : Option Member → Option α) : Option Member → Option (Option α)
  | none => some none
  | some .null => some none
  | some m => (f (some m)).map some

/-- `Deserialize` of `results::ProbeRecord`. Other fields are skipped. -/
def deserialize (ms : List (String × Member)) : Option ProbeRecord := do
  let side ← (fieldOf ms "side").bind asString
  let ok ← (fieldOf ms "ok").bind asBool
  let server ← (fieldOf ms "server").bind (asOption asString)
  let device ← (fieldOf ms "device").bind asString
  let bytes ← (fieldOf ms "bytes").bind (asOption asU64)
  let bwPeakGbps ← (fieldOf ms "bw_peak_gbps").bind (asOption asF64)
  let bwAvgGbps ← (fieldOf ms "bw_avg_gbps").bind (asOption asF64)
  let msgRateMpps ← (fieldOf ms "msg_rate_mpps").bind (asOption asF64)
  let durationS ← (fieldOf ms "duration_s").bind asF64
  let message ← (fieldOf ms "message").bind (asOption asString)
  let srcRack ← (fieldOf ms "src_rack").bind (asOption asString)
  let partnerNode ← (fieldOf ms "partner_node").bind (asOption asString)
  some ⟨side, ok, server, device, bytes, bwPeakGbps, bwAvgGbps, msgRateMpps, durationS, message,
    srcRack, partnerNode⟩

/-- What printing and reading again may change: the last digits of a float. -/
def Member.reread (round : Binary64 → Binary64) : Member → Member
  | .float x => .float (round x)
  | m => m

/-- The object with its floats printed and read again. -/
def reread (round : Binary64 → Binary64) (ms : List (String × Member)) : List (String × Member) :=
  ms.map fun e => (e.1, e.2.reread round)

/-! ### Field by field -/

/-- What is left of a figure after it was written and read. -/
def survivor (round : Binary64 → Binary64) (figure : Option Binary64) : Option Binary64 :=
  (figure.filter fun x => !x.isSpecial).map round

section Fields

variable (round : Binary64 → Binary64)

lemma asString_str (s : String) : asString (some ((Member.str s).reread round)) = some s := rfl

lemma asString_option (o : Option String) :
    asOption asString (some ((Member.option .str o).reread round)) = some o := by
  cases o <;> rfl

lemma asU64_option {o : Option ℕ} (h : ∀ n ∈ o, n < 2 ^ 64) :
    asOption asU64 (some ((Member.option (fun n : ℕ => .int n) o).reread round)) = some o := by
  cases o with
  | none => rfl
  | some n =>
      have hn : (0 : ℤ) ≤ n ∧ (n : ℤ) < 2 ^ 64 := ⟨Int.natCast_nonneg n, by exact_mod_cast h n rfl⟩
      simp only [Member.option, Member.reread, asOption, asU64, if_pos hn, Int.toNat_natCast,
        Option.map_some]

lemma asF64_ofFloat {x : Binary64} (h : ¬ x.isSpecial) :
    asF64 (some ((Member.ofFloat x).reread round)) = some (round x) := by
  rw [Member.ofFloat, if_neg h]
  rfl

/-- A figure that is not finite is written as `null` and read as absent. -/
lemma asF64_option (o : Option Binary64) :
    asOption asF64 (some ((Member.option .ofFloat o).reread round)) = some (survivor round o) := by
  cases o with
  | none => rfl
  | some x =>
      rw [Member.option, Member.ofFloat, survivor]
      by_cases hx : x.isSpecial
      · rw [if_pos hx, Option.filter_some_neg (by simp [hx])]
        rfl
      · rw [if_neg hx, Option.filter_some_pos (by simp [hx])]
        rfl

end Fields

/-- The fields of a record are different. -/
lemma nodup_members (r : Record) : (r.members.map Prod.fst).Nodup := by
  have hkeys : r.members.map Prod.fst = ["side", "ok", "server", "device", "bytes", "bw_peak_gbps",
    "bw_avg_gbps", "msg_rate_mpps", "duration_s", "message", "src_rack", "partner_node"] := rfl
  rw [hkeys]
  decide

/-- A field that is there once. -/
lemma fieldOf_of_mem {ms : List (String × Member)} (hnd : (ms.map Prod.fst).Nodup) {key : String}
    {m : Member} (h : (key, m) ∈ ms) : fieldOf ms key = some (some m) := by
  have hfilter : ms.filter (·.1 = key) = [(key, m)] := by
    induction ms with
    | nil => simp at h
    | cons e ms ih =>
        rw [List.map_cons, List.nodup_cons] at hnd
        rcases List.mem_cons.mp h with rfl | h
        · have hrest : ms.filter (·.1 = key) = [] := by
            refine List.filter_eq_nil_iff.mpr fun e he heq => hnd.1 ?_
            exact List.mem_map.mpr ⟨e, he, of_decide_eq_true heq⟩
          rw [List.filter_cons_of_pos (by simp), hrest]
        · have hne : e.1 ≠ key := fun heq => hnd.1 (heq ▸ List.mem_map_of_mem h)
          rw [List.filter_cons_of_neg (by simpa using hne), ih hnd.2 h]
  rw [fieldOf, hfilter]

lemma fieldOf_reread (round : Binary64 → Binary64) (r : Record) {key : String} {m : Member}
    (h : (key, m) ∈ r.members) :
    fieldOf (reread round r.members) key = some (some (m.reread round)) := by
  refine fieldOf_of_mem ?_ (List.mem_map.mpr ⟨(key, m), h, rfl⟩)
  rw [reread, List.map_map]
  exact nodup_members r

/-- What the prober makes of a record. -/
def received (round : Binary64 → Binary64) (r : Record) : ProbeRecord where
  side := r.side
  ok := r.ok
  server := r.server
  device := r.device
  bytes := r.bytes
  bwPeakGbps := survivor round r.bwPeakGbps
  bwAvgGbps := survivor round r.bwAvgGbps
  msgRateMpps := survivor round r.msgRateMpps
  durationS := round r.durationS
  message := r.message
  srcRack := r.srcRack
  partnerNode := r.partnerNode

/-- **The two types agree** on every field, the figures that are not finite apart. -/
theorem deserialize_members (round : Binary64 → Binary64) {r : Record}
    (hbytes : ∀ n ∈ r.bytes, n < 2 ^ 64) (hduration : ¬ r.durationS.isSpecial) :
    deserialize (reread round r.members) = some (received round r) := by
  have hfield (key : String) (m : Member) (h : (key, m) ∈ r.members) :
      fieldOf (reread round r.members) key = some (some (m.reread round)) :=
    fieldOf_reread round r h
  rw [deserialize, hfield "side" (.str r.side) (by simp [Record.members]),
    hfield "ok" (.bool r.ok) (by simp [Record.members]),
    hfield "server" (.option .str r.server) (by simp [Record.members]),
    hfield "device" (.str r.device) (by simp [Record.members]),
    hfield "bytes" (.option (fun n : ℕ => .int n) r.bytes) (by simp [Record.members]),
    hfield "bw_peak_gbps" (.option .ofFloat r.bwPeakGbps) (by simp [Record.members]),
    hfield "bw_avg_gbps" (.option .ofFloat r.bwAvgGbps) (by simp [Record.members]),
    hfield "msg_rate_mpps" (.option .ofFloat r.msgRateMpps) (by simp [Record.members]),
    hfield "duration_s" (.ofFloat r.durationS) (by simp [Record.members]),
    hfield "message" (.option .str r.message) (by simp [Record.members]),
    hfield "src_rack" (.option .str r.srcRack) (by simp [Record.members]),
    hfield "partner_node" (.option .str r.partnerNode) (by simp [Record.members])]
  simp only [Option.bind_some, Option.bind_eq_bind, asString_str, asString_option,
    asU64_option round hbytes, asF64_option, asF64_ofFloat round hduration]
  rfl

/-! ### From the log to the annotations -/

/-- `serde_json` on flat objects, as far as the text goes: the compact notation of an object,
the members of a text that is an object, and what a float is read back as. -/
structure SerdeJson where
  toString : List (String × Member) → String
  fromStr : String → Option (List (String × Member))
  round : Binary64 → Binary64

/-- What is documented of it, for one object: its notation is one line in braces, and is read
back as the object. -/
structure SerdeJson.Faithful (serde : SerdeJson) (ms : List (String × Member)) : Prop where
  line : isRecordLine (serde.toString ms).toList
  reads : serde.fromStr (serde.toString ms) = some (reread serde.round ms)

/-- `serde_json::from_str` of a record. -/
def SerdeJson.record (serde : SerdeJson) (line : String) : Option ProbeRecord :=
  (serde.fromStr line).bind deserialize

/-- The log has this line, and no other line of it is a record. -/
def Logged (serde : SerdeJson) (line log : String) : Prop :=
  ∃ before after, Text.lines log.toList = before ++ line.toList :: after ∧
    ∀ l ∈ before ++ after, isRecordLine (Text.trim l) →
      serde.record (String.ofList (Text.trim l)) = none

lemma isRecordLine_iff {cs : List Char} :
    isRecordLine cs ↔ cs.head? = some '\x7b' ∧ cs.getLast? = some '\x7d' := by
  simp [isRecordLine]

/-- A line in braces has no space around it. -/
lemma trim_eq_self_of_isRecordLine {cs : List Char} (h : isRecordLine cs) : Text.trim cs = cs := by
  obtain ⟨hhead, hlast⟩ := isRecordLine_iff.mp h
  refine Text.trim_eq_self (fun c hc => ?_) fun c hc => ?_
  · rw [hhead] at hc
    obtain rfl := Option.some.inj hc
    decide
  · rw [hlast] at hc
    obtain rfl := Option.some.inj hc
    decide

/-- The prober finds the record. -/
lemma parse_of_logged {serde : SerdeJson} {ms : List (String × Member)} {log : String}
    {rec : ProbeRecord} (hserde : serde.Faithful ms) (hlog : Logged serde (serde.toString ms) log)
    (hrec : deserialize (reread serde.round ms) = some rec) :
    Prober.parse serde.record log = .ok rec := by
  obtain ⟨before, after, hlines, hother⟩ := hlog
  have hbefore : (before.map Text.trim).findSome? (fun line =>
      if isRecordLine line then serde.record (String.ofList line) else none) = none := by
    refine List.findSome?_eq_none_iff.mpr fun line hline => ?_
    obtain ⟨l, hl, rfl⟩ := List.mem_map.mp hline
    split_ifs with hl'
    · exact hother l (List.mem_append_left _ hl) hl'
    · rfl
  have hfound : serde.record (serde.toString ms) = some rec := by
    rw [SerdeJson.record, hserde.reads, Option.bind_some, hrec]
  rw [Prober.parse, hlines, List.map_append, List.findSome?_append, hbefore, List.map_cons,
    trim_eq_self_of_isRecordLine hserde.line, List.findSome?_cons, if_pos hserde.line,
    String.ofList_toList, hfound]
  rfl

/-- The record of a successful probe has arrived with all that was measured, and the bodies
made from it set all three figures. -/
structure Carried (rec : ProbeRecord) (device : String) (s : Summary) : Prop where
  ok : rec.ok = true
  device_eq : rec.device = device
  bytes_eq : rec.bytes = some s.bytes
  bwAvg : rec.bwAvgGbps.isSome
  bwPeak : rec.bwPeakGbps.isSome
  msgRate : rec.msgRateMpps.isSome
  written : ∀ (keys : Keys) (partner : Option String) (now : String),
    ∀ k ∈ [keys.lastBwAvg, keys.lastBwPeak, keys.lastMsgRate],
      ∃ v, (buildBody keys partner now (.ok rec))[k]? = some (some v)

/-- A body sets the figures that the record has. -/
lemma written_of_isSome {rec : ProbeRecord} (havg : rec.bwAvgGbps.isSome)
    (hpeak : rec.bwPeakGbps.isSome) (hrate : rec.msgRateMpps.isSome) (keys : Keys)
    (partner : Option String) (now : String) :
    ∀ k ∈ [keys.lastBwAvg, keys.lastBwPeak, keys.lastMsgRate],
      ∃ v, (buildBody keys partner now (.ok rec))[k]? = some (some v) := by
  obtain ⟨avg, havg⟩ := Option.isSome_iff_exists.mp havg
  obtain ⟨peak, hpeak⟩ := Option.isSome_iff_exists.mp hpeak
  obtain ⟨rate, hrate⟩ := Option.isSome_iff_exists.mp hrate
  have hentry {k : String} {v : Option String}
      (h : (k, v) ∈ Prober.verdictEntries keys (.ok rec)) :
      (buildBody keys partner now (.ok rec))[k]? = some v :=
    Prober.getElem?_buildBody (List.mem_cons_of_mem _ (List.mem_append_right _ h))
  intro k hk
  simp only [List.mem_cons, List.not_mem_nil, or_false] at hk
  obtain rfl | rfl | rfl := hk
  · exact ⟨avg.toFixed 2, hentry (by simp [Prober.verdictEntries, Prober.figure, havg])⟩
  · exact ⟨peak.toFixed 2, hentry (by simp [Prober.verdictEntries, Prober.figure, hpeak])⟩
  · exact ⟨rate.toFixed 6, hentry (by simp [Prober.verdictEntries, Prober.figure, hrate])⟩

@[simp] lemma isSome_survivor_some (round : Binary64 → Binary64) (x : Binary64) :
    (survivor round (some x)).isSome ↔ ¬ x.isSpecial := by
  by_cases hx : x.isSpecial <;> simp [survivor, hx]

/-- The record of a successful run. -/
lemma buildRecord_of_parse (args : Resolved) (device : String) (durationS : Binary64)
    {stdout : String} {s : Summary} (h : Perftest.parse stdout = some s) :
    buildRecord args device durationS (outcomeOf stdout) = {
      side := args.mode.slug
      ok := true
      server := args.server
      device := device
      bytes := some s.bytes
      bwPeakGbps := some s.bwPeakGbps
      bwAvgGbps := some s.bwAvgGbps
      msgRateMpps := some s.msgRateMpps
      durationS := durationS
      message := none
      srcRack := args.srcRack
      partnerNode := args.partnerNode } := by
  rw [outcomeOf, h]
  rfl

/-- The record of a successful run, as it arrives. -/
lemma parse_of_successful (args : Resolved) (device : String) {durationS : Binary64}
    (hduration : ¬ durationS.isSpecial) {stdout : String} {s : Summary}
    (hparse : Perftest.parse stdout = some s) {serde : SerdeJson} {log : String}
    (hserde : serde.Faithful (buildRecord args device durationS (outcomeOf stdout)).members)
    (hlog : Logged serde
      (serde.toString (buildRecord args device durationS (outcomeOf stdout)).members) log) :
    Prober.parse serde.record log =
      .ok (received serde.round (buildRecord args device durationS (outcomeOf stdout))) := by
  have hrecord := buildRecord_of_parse args device durationS hparse
  refine parse_of_logged hserde hlog (deserialize_members serde.round ?_ ?_)
  · rw [hrecord]
    intro n hn
    obtain rfl := Option.some.inj hn
    exact Perftest.bytes_lt_of_parse hparse
  · rw [hrecord]
    exact hduration

/-- **When the figures arrive**: a successful run has its three figures in the annotations
if and only if they are finite in the output of `ib_send_bw`. -/
theorem carried_iff (args : Resolved) (device : String) {durationS : Binary64}
    (hduration : ¬ durationS.isSpecial) {stdout : String} {s : Summary}
    (hparse : Perftest.parse stdout = some s) {serde : SerdeJson} {log : String}
    (hserde : serde.Faithful (buildRecord args device durationS (outcomeOf stdout)).members)
    (hlog : Logged serde
      (serde.toString (buildRecord args device durationS (outcomeOf stdout)).members) log) :
    (∃ rec, Prober.parse serde.record log = .ok rec ∧ Carried rec device s) ↔
      FiniteFigures stdout := by
  rw [parse_of_successful args device hduration hparse hserde hlog,
    buildRecord_of_parse args device durationS hparse, Perftest.finiteFigures_iff hparse]
  constructor
  · rintro ⟨rec, hrec, hcarried⟩
    obtain rfl := Except.ok.inj hrec
    exact ⟨(isSome_survivor_some _ _).mp hcarried.bwPeak,
      (isSome_survivor_some _ _).mp hcarried.bwAvg, (isSome_survivor_some _ _).mp hcarried.msgRate⟩
  · rintro ⟨hpeak, havg, hrate⟩
    have hpeak := (isSome_survivor_some serde.round _).mpr hpeak
    have havg := (isSome_survivor_some serde.round _).mpr havg
    have hrate := (isSome_survivor_some serde.round _).mpr hrate
    exact ⟨_, rfl, rfl, rfl, rfl, havg, hpeak, hrate, written_of_isSome havg hpeak hrate⟩

/-! ### Two runs -/

/-- A client between two nodes of a rack. -/
def clientArgs : Resolved := ⟨.client, some "10.0.0.5", some "r1", some "node-b"⟩

/-- Thirty seconds. -/
def thirtySeconds : Binary64 := Binary64.ofDecimal false 30 0

lemma thirtySeconds_finite : ¬ thirtySeconds.isSpecial := by decide +kernel

/-- The record of a run with this output. -/
def recordOf (stdout : String) : Record :=
  buildRecord clientArgs "mlx5_0" thirtySeconds (outcomeOf stdout)

/-- `serde_json`, where it only has to know one object and its notation. -/
def SerdeJson.knowing (ms : List (String × Member)) (text : String) : SerdeJson where
  toString _ := text
  fromStr t := if t = text then some ms else none
  round := id

lemma reread_id (ms : List (String × Member)) : reread id ms = ms := by
  refine List.map_id'' (fun e => ?_) ms
  obtain ⟨key, m⟩ := e
  cases m <;> rfl

lemma SerdeJson.faithful_knowing (ms : List (String × Member)) {text : String}
    (h : isRecordLine text.toList) : (SerdeJson.knowing ms text).Faithful ms where
  line := h
  reads := (if_pos rfl).trans (congrArg some (reread_id ms).symm)

/-- The output of a run, with these words for its figures. -/
def outputOf (bwPeak bwAvg msgRate : String) : String :=
  String.join [" #bytes     #iterations    ", "BW peak[Gb/sec]    ", "BW average[Gb/sec]   ",
    "MsgRate[Mpps]\n", " 65536      5000             ", bwPeak, "              ", bwAvg,
    "              ", msgRate, "\n"]

/-- The line of its record, with these figures. -/
def lineOf (bwPeak bwAvg msgRate : String) : String :=
  String.join ["\x7b\"side\":\"client\",\"ok\":true,", "\"server\":\"10.0.0.5\",",
    "\"device\":\"mlx5_0\",\"bytes\":65536,", "\"bw_peak_gbps\":", bwPeak,
    ",\"bw_avg_gbps\":", bwAvg, ",\"msg_rate_mpps\":", msgRate, ",\"duration_s\":30.0,",
    "\"message\":null,\"src_rack\":\"r1\",", "\"partner_node\":\"node-b\"\x7d"]

/-- The log of a pod that prints the line after a message. -/
def logOf (line : String) : String := String.join ["INFO probe starting\n", line, "\n"]

/-- What is one line is found in the log. -/
lemma logged_logOf (serde : SerdeJson) {line : String} (hline : isRecordLine line.toList)
    (hnewline : '\n' ∉ line.toList) : Logged serde line (logOf line) := by
  have hlast : line.toList.getLast? ≠ some '\r' := by
    rw [(isRecordLine_iff.mp hline).2]
    decide
  have hlog : (logOf line).toList =
      "INFO probe starting".toList ++ '\n' :: (line.toList ++ '\n' :: []) := by
    rw [logOf, String.toList_join]
    simp
  refine ⟨["INFO probe starting".toList], [], ?_, ?_⟩
  · rw [hlog, Text.lines_append (by decide) (by decide), Text.lines_append hnewline hlast]
    rfl
  · rw [List.append_nil, List.forall_mem_singleton]
    exact fun hl => absurd hl (by decide)

/-- The figures of a run arrive. -/
theorem carried_measured :
    ∃ s rec, Perftest.parse (outputOf "89.60" "89.40" "0.179173") = some s ∧
      Prober.parse (SerdeJson.knowing (recordOf (outputOf "89.60" "89.40" "0.179173")).members
        (lineOf "89.6" "89.4" "0.179173")).record (logOf (lineOf "89.6" "89.4" "0.179173")) =
          .ok rec ∧
      Carried rec "mlx5_0" s := by
  have hparse : (Perftest.parse (outputOf "89.60" "89.40" "0.179173")).map (fun s =>
      (s.bwPeakGbps.isSpecial, s.bwAvgGbps.isSpecial, s.msgRateMpps.isSpecial)) =
      some (false, false, false) := by
    rw [Perftest.parse, outputOf, String.toList_join]
    decide +kernel
  obtain ⟨s, hs, hfinite⟩ := Option.map_eq_some_iff.mp hparse
  simp only [Prod.mk.injEq] at hfinite
  have hline : isRecordLine (lineOf "89.6" "89.4" "0.179173").toList := by
    rw [lineOf, String.toList_join]
    decide +kernel
  have hnewline : '\n' ∉ (lineOf "89.6" "89.4" "0.179173").toList := by
    rw [lineOf, String.toList_join]
    decide +kernel
  have hcarried := carried_iff clientArgs "mlx5_0" thirtySeconds_finite hs
    (SerdeJson.faithful_knowing (recordOf (outputOf "89.60" "89.40" "0.179173")).members hline)
    (logged_logOf _ hline hnewline)
  obtain ⟨rec, hrec, hrest⟩ :=
    hcarried.mpr ((Perftest.finiteFigures_iff hs).mpr (by simp [hfinite]))
  exact ⟨s, rec, hs, hrec, hrest⟩

/-- The average that is not a number is lost: the record is ok, it has no average, and the
body leaves the average of an earlier probe on the node. -/
theorem figure_lost :
    ∃ s rec, Perftest.parse (outputOf "89.60" "nan" "0.179173") = some s ∧
      (SerdeJson.knowing (recordOf (outputOf "89.60" "nan" "0.179173")).members
        (lineOf "89.6" "null" "0.179173")).Faithful
          (recordOf (outputOf "89.60" "nan" "0.179173")).members ∧
      Prober.parse (SerdeJson.knowing (recordOf (outputOf "89.60" "nan" "0.179173")).members
        (lineOf "89.6" "null" "0.179173")).record (logOf (lineOf "89.6" "null" "0.179173")) =
          .ok rec ∧
      rec.ok = true ∧ rec.bwAvgGbps = none ∧
      (buildBody Keys.rack (some "node-b") "2026-05-07T12:00:00Z" (.ok rec))[
        "accel-test.lunnova.dev/last-rack-bw-gbps"]? = none := by
  have hparse : (Perftest.parse (outputOf "89.60" "nan" "0.179173")).map
      (·.bwAvgGbps.isSpecial) = some true := by
    rw [Perftest.parse, outputOf, String.toList_join]
    decide +kernel
  obtain ⟨s, hs, hspecial⟩ := Option.map_eq_some_iff.mp hparse
  have hline : isRecordLine (lineOf "89.6" "null" "0.179173").toList := by
    rw [lineOf, String.toList_join]
    decide +kernel
  have hnewline : '\n' ∉ (lineOf "89.6" "null" "0.179173").toList := by
    rw [lineOf, String.toList_join]
    decide +kernel
  have hfaithful := SerdeJson.faithful_knowing
    (recordOf (outputOf "89.60" "nan" "0.179173")).members hline
  have hrec := parse_of_successful clientArgs "mlx5_0" thirtySeconds_finite hs hfaithful
    (logged_logOf _ hline hnewline)
  have hbuild := buildRecord_of_parse clientArgs "mlx5_0" thirtySeconds hs
  have hlost : (received id (recordOf (outputOf "89.60" "nan" "0.179173"))).bwAvgGbps = none := by
    rw [recordOf, hbuild]
    simp [received, survivor, hspecial]
  have hok : (received id (recordOf (outputOf "89.60" "nan" "0.179173"))).ok = true := by
    rw [recordOf, hbuild]
    rfl
  refine ⟨s, received id (recordOf (outputOf "89.60" "nan" "0.179173")), hs, hfaithful, hrec, hok,
    hlost, Prober.buildBody_eq_none fun hmem => ?_⟩
  have hsome := (Prober.mem_entries_figures Keys.rack (some "node-b") "2026-05-07T12:00:00Z"
    _).1.mp hmem
  rw [hlost] at hsome
  exact absurd hsome Bool.false_ne_true

end Accelrd.Probe
