import Mathlib.Tactic
import Accelrd.Topology.LabelForm
import Accelrd.Topology.RackInference

/-!
`discover` of `src/topology/lldp.rs`: the loop that listens for switches, and the rack that
is inferred from what it hears.

* `lldpDiscover`: the code.
* `announced`: the neighbours that the frames of one interface speak of.
* `Heard`: what is asked of the neighbours that are returned.
* `heard_lldpDiscover`: for each interface the last announcement counts, whatever comes
  between, and a switch has a vote for each interface, however often it speaks.
-/

namespace Accelrd.Topology

open Std Insertions Lldp

/-! ### The code -/

/-- What a turn of the loop receives: a frame, with the index of its interface, an error, or
nothing after all. -/
inductive Reception where
  | frame (ifindex : ℤ) (payload : List UInt8)
  | error
  | wouldBlock

/-- The name of an interface, or what stands in for it. -/
def interfaceName (ifindexToName : ℤ → Option String) (ifindex : ℤ) : String :=
  (ifindexToName ifindex).getD ("if" ++ toString ifindex)

/-- A turn of the loop of `discover`. The buffer has 1500 bytes. -/
def receive (ifindexToName : ℤ → Option String) (byIface : ExtTreeMap String LldpNeighbor) :
    Reception → Except Panic (ExtTreeMap String LldpNeighbor)
  | .frame ifindex payload => do
      let iface := interfaceName ifindexToName ifindex
      match ← parseLldpdu (payload.take 1500) iface with
      | some neighbor => return byIface.insert iface neighbor
      | none => return byIface
  | .error | .wouldBlock => return byIface

/-- `discover` of `lldp.rs`, with the seconds that the clock shows and what is received until
the deadline. -/
def lldpDiscover (order : HashOrder LldpNeighbor) (ifindexToName : ℤ → Option String)
    (socketOpens : Bool) (now timeoutSecs : ℕ) (receptions : List Reception) :
    Except Panic (List LldpNeighbor) := do
  if timeoutSecs = 0 ∨ socketOpens = false then return []
  if 2 ^ 63 ≤ now + timeoutSecs then throw .overflow
  let byIface ← receptions.foldlM (receive ifindexToName) ∅
  return order.arrange (byIface.toList.map Prod.snd)

/-! ### What is announced -/

/-- The neighbour that a frame speaks of. -/
def decoded (payload : List UInt8) (iface : String) : Option LldpNeighbor :=
  (Fields.assignAll ⟨none, none, none⟩ (Tlv.decode (payload.take 1500))).neighbor iface

/-- The neighbour that a frame on an interface speaks of. -/
def announcement (ifindexToName : ℤ → Option String) (iface : String) :
    Reception → Option LldpNeighbor
  | .frame ifindex payload =>
      if interfaceName ifindexToName ifindex = iface then decoded payload iface else none
  | .error | .wouldBlock => none

/-- The neighbours that the frames of an interface speak of, in order. -/
def announced (ifindexToName : ℤ → Option String) (receptions : List Reception)
    (iface : String) : List LldpNeighbor :=
  receptions.filterMap (announcement ifindexToName iface)

variable {ifindexToName : ℤ → Option String}

/-- A neighbour is heard on the interface of its frame. -/
lemma interface_of_decoded {payload : List UInt8} {iface : String} {n : LldpNeighbor}
    (h : decoded payload iface = some n) : n.interface = iface := by
  rw [decoded, Fields.neighbor] at h
  split at h
  · obtain rfl := Option.some.inj h
    rfl
  · cases h

/-- **One turn**: the announcement of an interface replaces the one before. -/
lemma receive_spec (byIface : ExtTreeMap String LldpNeighbor) (r : Reception) :
    ∃ m, receive ifindexToName byIface r = .ok m ∧
      ∀ iface, m[iface]? = (announcement ifindexToName iface r).or byIface[iface]? := by
  cases r with
  | error => exact ⟨byIface, rfl, fun _ => rfl⟩
  | wouldBlock => exact ⟨byIface, rfl, fun _ => rfl⟩
  | frame ifindex payload =>
      rw [receive, parseLldpdu_eq]
      change ∃ m, (match decoded payload (interfaceName ifindexToName ifindex) with
        | some neighbor => .ok (byIface.insert (interfaceName ifindexToName ifindex) neighbor)
        | none => .ok byIface) = Except.ok m ∧ _
      cases hdecoded : decoded payload (interfaceName ifindexToName ifindex) with
      | none =>
          refine ⟨byIface, rfl, fun iface => ?_⟩
          rw [announcement]
          split_ifs with hiface
          · rw [← hiface, hdecoded, Option.none_or]
          · rfl
      | some n =>
          refine ⟨_, rfl, fun iface => ?_⟩
          rw [announcement, ExtTreeMap.getElem?_insert]
          by_cases hiface : interfaceName ifindexToName ifindex = iface
          · subst hiface
            rw [if_pos compare_self, if_pos rfl, hdecoded, Option.some_or]
          · rw [if_neg (by rwa [Std.compare_eq_iff_eq]), if_neg hiface, Option.none_or]

/-- **The loop**: of each interface the last announcement is kept. -/
lemma foldlM_receive (receptions : List Reception) (byIface : ExtTreeMap String LldpNeighbor) :
    ∃ m, receptions.foldlM (receive ifindexToName) byIface = .ok m ∧
      ∀ iface, m[iface]? =
        ((announced ifindexToName receptions iface).getLast?).or byIface[iface]? := by
  induction receptions generalizing byIface with
  | nil => exact ⟨byIface, rfl, fun _ => rfl⟩
  | cons r receptions ih =>
      obtain ⟨m₁, hm₁, hfirst⟩ := @receive_spec ifindexToName byIface r
      obtain ⟨m, hm, hrest⟩ := ih m₁
      refine ⟨m, by rw [List.foldlM_cons, hm₁]; exact hm, fun iface => ?_⟩
      rw [hrest, hfirst, announced, announced, List.filterMap_cons]
      cases announcement ifindexToName iface r with
      | none => rw [Option.none_or]
      | some n =>
          rw [List.getLast?_cons]
          cases (receptions.filterMap (announcement ifindexToName iface)).getLast? with
          | none => rfl
          | some n' => rfl

/-! ### What is returned -/

/-- The interfaces that frames came from. -/
def frameInterfaces (ifindexToName : ℤ → Option String) (receptions : List Reception) :
    List String :=
  (receptions.filterMap fun r => match r with
    | .frame ifindex _ => some (interfaceName ifindexToName ifindex)
    | .error | .wouldBlock => none).dedup

/-- The last announcement of each interface. -/
def latest (ifindexToName : ℤ → Option String) (receptions : List Reception) :
    List LldpNeighbor :=
  (frameInterfaces ifindexToName receptions).filterMap fun iface =>
    (announced ifindexToName receptions iface).getLast?

/-- How many interfaces a chassis was the last to be announced on. -/
def votes (ifindexToName : ℤ → Option String) (receptions : List Reception) (chassisId : String) :
    ℕ :=
  (frameInterfaces ifindexToName receptions).countP fun iface =>
    (announced ifindexToName receptions iface).getLast?.any (·.chassisId = chassisId)

/-- What is asked of the neighbours that are returned: of each interface they have the last
announcement, they were read from frames, and a rack that is inferred from them is that of a
chassis with the most interfaces. -/
structure Heard (ifindexToName : ℤ → Option String) (receptions : List Reception)
    (neighbors : List LldpNeighbor) : Prop where
  latest : neighbors.Perm (latest ifindexToName receptions)
  received : ∀ n ∈ neighbors, Received n
  rack : ∀ order s, inferRackFromLldp order neighbors = some s →
    ∃ n ∈ neighbors, s = n.rackSlug ∧ ∀ c,
      votes ifindexToName receptions c ≤ votes ifindexToName receptions n.chassisId

variable {receptions : List Reception}

lemma exists_of_mem_announced {iface : String} {n : LldpNeighbor}
    (hn : n ∈ announced ifindexToName receptions iface) :
    n.interface = iface ∧ iface ∈ frameInterfaces ifindexToName receptions ∧ Received n := by
  obtain ⟨r, hr, hannounced⟩ := List.mem_filterMap.mp hn
  cases r with
  | error => cases hannounced
  | wouldBlock => cases hannounced
  | frame ifindex payload =>
      rw [announcement] at hannounced
      split_ifs at hannounced with hiface
      have hinterface := interface_of_decoded hannounced
      refine ⟨hinterface, ?_, payload.take 1500, ?_⟩
      · exact List.mem_dedup.mpr (List.mem_filterMap.mpr ⟨_, hr, congrArg some hiface⟩)
      · rw [parseLldpdu_eq, hinterface]
        exact congrArg Except.ok hannounced

lemma mem_latest {n : LldpNeighbor} :
    n ∈ latest ifindexToName receptions ↔
      (announced ifindexToName receptions n.interface).getLast? = some n := by
  rw [latest, List.mem_filterMap]
  constructor
  · rintro ⟨iface, -, hlast⟩
    obtain ⟨hinterface, -⟩ := exists_of_mem_announced (List.mem_of_getLast? hlast)
    rwa [hinterface]
  · intro hlast
    exact ⟨_, (exists_of_mem_announced (List.mem_of_getLast? hlast)).2.1, hlast⟩

/-- Each interface has one. -/
lemma nodup_latest : (latest ifindexToName receptions).Nodup := by
  refine List.Nodup.filterMap (fun i j n hi hj => ?_) (List.nodup_dedup _)
  rw [← (exists_of_mem_announced (List.mem_of_getLast? hi)).1,
    (exists_of_mem_announced (List.mem_of_getLast? hj)).1]

/-- A chassis is counted once for each interface. -/
lemma chassisCount_latest (c : String) :
    chassisCount (latest ifindexToName receptions) c = votes ifindexToName receptions c := by
  rw [chassisCount, votes, latest]
  induction frameInterfaces ifindexToName receptions with
  | nil => rfl
  | cons iface ifaces ih =>
      rw [List.filterMap_cons, List.countP_cons]
      cases (announced ifindexToName receptions iface).getLast? with
      | none => simpa using ih
      | some n => simp [List.count_cons, ih]

lemma heard_of_perm {neighbors : List LldpNeighbor}
    (h : neighbors.Perm (latest ifindexToName receptions)) :
    Heard ifindexToName receptions neighbors where
  latest := h
  received n hn :=
    (exists_of_mem_announced (List.mem_of_getLast? (mem_latest.mp (h.mem_iff.mp hn)))).2.2
  rack order s hs := by
    obtain ⟨n, hdominant, -, rfl⟩ := inferRack_eq_some hs
    have hcount (c : String) : chassisCount neighbors c = votes ifindexToName receptions c := by
      rw [chassisCount_of_perm h, chassisCount_latest]
    refine ⟨n, hdominant.1, rfl, fun c => ?_⟩
    rw [← hcount, ← hcount]
    by_cases hc : c ∈ neighbors.map LldpNeighbor.chassisId
    · obtain ⟨m, hm, rfl⟩ := List.mem_map.mp hc
      exact hdominant.2 m hm
    · rw [chassisCount, List.count_eq_zero_of_not_mem hc]
      exact Nat.zero_le _

/-- **What the daemon hears.** Whatever is received until a deadline that the clock can show,
in any order of the interfaces and with any frames that say nothing between, the loop ends
without leaving the parser, and it returns the last announcement of each interface. So a
switch has one vote for each interface in the choice of the rack, however often it is heard. -/
theorem heard_lldpDiscover (order : HashOrder LldpNeighbor)
    (ifindexToName : ℤ → Option String) {now timeoutSecs : ℕ} (htimeout : timeoutSecs ≠ 0)
    (hdeadline : now + timeoutSecs < 2 ^ 63) (receptions : List Reception) :
    ∃ neighbors,
      lldpDiscover order ifindexToName true now timeoutSecs receptions = .ok neighbors ∧
      Heard ifindexToName receptions neighbors := by
  obtain ⟨m, hm, hlast⟩ := @foldlM_receive ifindexToName receptions ∅
  have hlast (iface : String) :
      m[iface]? = (announced ifindexToName receptions iface).getLast? := by
    rw [hlast, ExtTreeMap.getElem?_empty, Option.or_none]
  have hkey : ∀ e ∈ m.toList, e.2.interface = e.1 := by
    intro e he
    have hget := ExtTreeMap.mem_toList_iff_getElem?_eq_some.mp he
    rw [hlast] at hget
    exact (exists_of_mem_announced (List.mem_of_getLast? hget)).1
  have hnodup : (m.toList.map Prod.snd).Nodup := by
    have hkeys : m.toList.map (LldpNeighbor.interface ∘ Prod.snd) = m.toList.map Prod.fst :=
      List.map_congr_left hkey
    refine List.Nodup.of_map LldpNeighbor.interface ?_
    rw [List.map_map, hkeys]
    refine List.pairwise_map.mpr (ExtTreeMap.distinct_keys_toList.imp fun hne heq => hne ?_)
    rw [heq]
    exact compare_self
  have hmem (n : LldpNeighbor) :
      n ∈ m.toList.map Prod.snd ↔ n ∈ latest ifindexToName receptions := by
    rw [mem_latest, ← hlast, List.mem_map]
    constructor
    · rintro ⟨e, he, rfl⟩
      rw [hkey e he]
      exact ExtTreeMap.mem_toList_iff_getElem?_eq_some.mp he
    · intro hget
      exact ⟨(n.interface, n), ExtTreeMap.mem_toList_iff_getElem?_eq_some.mpr hget, rfl⟩
  refine ⟨_, ?_, heard_of_perm ((order.perm _).trans
    ((List.perm_ext_iff_of_nodup hnodup nodup_latest).mpr hmem))⟩
  rw [lldpDiscover, if_neg (by simpa using htimeout), if_neg hdeadline.not_ge, hm]
  rfl

/-- A switch that is heard twice, and a frame of it that was cut. -/
def labReceptions : List Reception :=
  let labFrame : List UInt8 := [0x02, 0x07, 0x04, 0x1c, 0x2a, 0xa3, 0x1e, 0xc7, 0xb4, 0x04, 0x04,
    0x07, 0x54, 0x45, 0x34, 0x06, 0x02, 0x00, 0x78, 0x00, 0x00]
  [.frame 2 labFrame, .error, .frame 3 (labFrame.take 14), .wouldBlock, .frame 2 labFrame]

/-- It is returned once. -/
theorem heard_lldpDiscover_lab :
    ∃ neighbors,
      lldpDiscover HashOrder.id (fun _ => none) true 86400 30 labReceptions = .ok neighbors ∧
      Heard (fun _ => none) labReceptions neighbors :=
  heard_lldpDiscover HashOrder.id (fun _ => none) (by decide) (by decide) labReceptions

end Accelrd.Topology
