import Mathlib.Tactic
import Accelrd.Library.Insertions
import Accelrd.Library.Tlv
import Accelrd.Library.Utf8
import Accelrd.Topology.Basic

/-!
`src/topology/lldp.rs`: what a frame of a switch says about it.

* `parseLldpdu`: the cursor of the code, on bytes. An access outside of the buffer is a
  `Panic`.
* `parseLldpdu_eq`: the cursor reads the records that `Tlv.decode` finds, and it never
  leaves the buffer.
* `parseLldpdu_exact`: of whole frames, of frames that are cut, and of any bytes.
-/

namespace Accelrd.Topology.Lldp

open Std

/-! ### Bytes -/

/-- Why a thread panics: it indexes past the end of a slice, or the sum of an `Instant` and a
`Duration` has no representation. -/
inductive Panic where
  | outOfBounds
  | overflow
  deriving DecidableEq

/-- `buf[i]`. -/
def index (buf : List UInt8) (i : ℕ) : Except Panic UInt8 :=
  match buf[i]? with
  | some b => .ok b
  | none => .error .outOfBounds

/-- `&buf[i..j]`. -/
def slice (buf : List UInt8) (i j : ℕ) : Except Panic (List UInt8) :=
  if i ≤ j ∧ j ≤ buf.length then .ok ((buf.take j).drop i) else .error .outOfBounds

/-- `u16::from_be_bytes`. -/
def fromBeBytes (hi lo : UInt8) : UInt16 := hi.toUInt16 <<< 8 ||| lo.toUInt16

/-- `std::str::from_utf8`. -/
def fromUtf8 (bytes : List UInt8) : Option String := String.fromUTF8? ⟨bytes.toArray⟩

/-- `format!("{b:02x}")`. -/
def hexByte (b : UInt8) : List Char := [(b.toNat / 16).digitChar, (b.toNat % 16).digitChar]

/-- `mac_to_string`. -/
def macToString (bytes : List UInt8) : String :=
  String.ofList (List.intercalate [':'] (bytes.map hexByte))

/-- `hex_encode`. -/
def hexEncode (bytes : List UInt8) : String := String.ofList (bytes.flatMap hexByte)

/-! ### The two mandatory records -/

/-- `parse_chassis_id`. -/
def parseChassisId : List UInt8 → Option (String × ChassisIdKind)
  | [] => none
  | subtype :: body =>
      if subtype = 4 ∧ body.length = 6 then some (macToString body, .mac)
      else if subtype = 6 ∨ subtype = 7 then
        ((fromUtf8 body).filter (· ≠ "")).map fun s => (s, .name)
      else some (hexEncode body, .other)

/-- `parse_port_id`. -/
def parsePortId : List UInt8 → Option String
  | [] => none
  | subtype :: body =>
      if subtype = 3 ∧ body.length = 6 then some (macToString body)
      else if subtype = 5 ∨ subtype = 6 ∨ subtype = 7 then fromUtf8 body
      else some (hexEncode body)

/-- What a value of type 5 says: a name, unless it is empty or no text. -/
def parseSystemName (val : List UInt8) : Option String := (fromUtf8 val).filter (· ≠ "")

/-! ### The cursor -/

/-- The variables of `parse_lldpdu` besides the cursor. -/
structure Fields where
  chassis : Option (String × ChassisIdKind)
  port : Option String
  sysname : Option String

/-- The arms of the `match` on the type of a record, the one that ends the loop apart. -/
def Fields.assign (st : Fields) (ty : ℕ) (val : List UInt8) : Fields :=
  match ty with
  | 1 => { st with chassis := parseChassisId val }
  | 2 => { st with port := parsePortId val }
  | 5 => { st with sysname := parseSystemName val }
  | _ => st

/-- The loop of `parse_lldpdu`. -/
def parseLoop (buf : List UInt8) (p : ℕ) (st : Fields) : Except Panic Fields :=
  if p + 2 ≤ buf.length then do
    let hi ← index buf p
    let lo ← index buf (p + 1)
    let hdr := fromBeBytes hi lo
    let ty := (hdr >>> 9).toUInt8
    let len := (hdr &&& 0x01FF).toNat
    if p + 2 + len > buf.length then return st
    let val ← slice buf (p + 2) (p + 2 + len)
    if ty = 0 then return st
    parseLoop buf (p + 2 + len) (st.assign ty.toNat val)
  else return st
termination_by buf.length - p

/-- `parse_lldpdu`. -/
def parseLldpdu (buf : List UInt8) (interface : String) : Except Panic (Option LldpNeighbor) := do
  let st ← parseLoop buf 0 ⟨none, none, none⟩
  return match st.chassis, st.port with
    | some (chassisId, chassisIdKind), some portId =>
        some { interface, chassisId, chassisIdKind, portId, systemName := st.sysname }
    | _, _ => none

/-! ### The cursor reads records -/

lemma toNat_fromBeBytes (hi lo : UInt8) :
    (fromBeBytes hi lo).toNat = hi.toNat * 256 + lo.toNat := by
  have hlo : lo.toNat < 2 ^ 8 := lo.toNat_lt
  have hshift : (hi.toUInt16 <<< 8).toNat = hi.toNat <<< 8 := by
    have hhi := hi.toNat_lt
    rw [UInt16.toNat_shiftLeft, UInt8.toNat_toUInt16, Nat.shiftLeft_eq, Nat.shiftLeft_eq]
    exact Nat.mod_eq_of_lt (by simp; omega)
  rw [fromBeBytes, UInt16.toNat_or, hshift, UInt8.toNat_toUInt16,
    ← Nat.shiftLeft_add_eq_or_of_lt hlo, Nat.shiftLeft_eq]

/-- The high seven bits of a header. -/
lemma toNat_type (hi lo : UInt8) :
    (fromBeBytes hi lo >>> 9).toUInt8.toNat = (hi.toNat * 256 + lo.toNat) / 512 := by
  have hhi := hi.toNat_lt
  have hlo := lo.toNat_lt
  have hshift : (fromBeBytes hi lo >>> 9).toNat = (hi.toNat * 256 + lo.toNat) / 512 := by
    rw [UInt16.toNat_shiftRight, toNat_fromBeBytes, Nat.shiftRight_eq_div_pow]
    rfl
  rw [UInt16.toNat_toUInt8, hshift]
  omega

/-- The low nine bits of a header. -/
lemma toNat_length (hi lo : UInt8) :
    (fromBeBytes hi lo &&& 0x01FF).toNat = (hi.toNat * 256 + lo.toNat) % 512 := by
  rw [UInt16.toNat_and, toNat_fromBeBytes]
  exact Nat.and_two_pow_sub_one_eq_mod _ 9

lemma index_of_lt {buf : List UInt8} {i : ℕ} (h : i < buf.length) : index buf i = .ok buf[i] := by
  rw [index, List.getElem?_eq_getElem h]

lemma slice_of_le {buf : List UInt8} {i n : ℕ} (h : i + n ≤ buf.length) :
    slice buf i (i + n) = .ok ((buf.drop i).take n) := by
  rw [slice, if_pos ⟨by omega, h⟩, List.drop_take, Nat.add_sub_cancel_left]

/-- The records of a frame, one after the other. -/
def Fields.assignAll (st : Fields) (rs : List Tlv.Record) : Fields :=
  rs.foldl (fun st r => st.assign r.type r.value) st

/-- **The cursor reads the records of the buffer.** In particular no access of the loop is
outside of the buffer. -/
lemma parseLoop_eq (buf : List UInt8) (p : ℕ) (st : Fields) :
    parseLoop buf p st = .ok (st.assignAll (Tlv.decode (buf.drop p))) := by
  induction h : buf.length - p using Nat.strong_induction_on generalizing p st with
  | _ n ih =>
    subst h
    rw [parseLoop]
    by_cases hp : p + 2 ≤ buf.length
    · have hdrop : buf.drop p = buf[p] :: buf[p + 1] :: buf.drop (p + 2) := by
        rw [List.drop_eq_getElem_cons (by omega), List.drop_eq_getElem_cons (by omega)]
      have hlength : (buf.drop (p + 2)).length = buf.length - (p + 2) := List.length_drop
      rw [if_pos hp, index_of_lt (by omega), index_of_lt (by omega)]
      simp only [bind, Except.bind, toNat_length, hdrop]
      by_cases hlen : (buf[p].toNat * 256 + buf[p + 1].toNat) % 512 ≤ (buf.drop (p + 2)).length
      · -- a whole record
        rw [if_neg (by omega), slice_of_le (by omega)]
        obtain ⟨r, hsplit, htype, hvalue⟩ := Tlv.exists_split hlen
        rw [Tlv.decode_of_some hsplit, List.drop_drop, htype]
        by_cases hty : (buf[p].toNat * 256 + buf[p + 1].toNat) / 512 = 0
        · have hty' : (fromBeBytes buf[p] buf[p + 1] >>> 9).toUInt8 = 0 :=
            UInt8.toNat_inj.mp (by rw [toNat_type, hty]; rfl)
          simp only [hty, hty', if_true]
          rfl
        · have hty' : (fromBeBytes buf[p] buf[p + 1] >>> 9).toUInt8 ≠ 0 := fun h0 =>
            hty (by rw [← toNat_type, h0]; rfl)
          simp only [if_neg hty, if_neg hty', toNat_type]
          rw [ih _ (by omega) _ _ rfl, ← htype, ← hvalue]
          rfl
      · -- the buffer ends within the record
        rw [if_pos (by omega)]
        rw [Tlv.decode_of_none (Tlv.split_of_length_lt (by omega))]
        rfl
    · have hlength : (buf.drop p).length < 2 := by
        rw [List.length_drop]
        omega
      rw [if_neg hp, Tlv.decode_of_none (Tlv.split_of_length_lt_two hlength)]
      rfl

/-- What is made of the fields at the end. -/
def Fields.neighbor (st : Fields) (interface : String) : Option LldpNeighbor :=
  match st.chassis, st.port with
  | some (chassisId, chassisIdKind), some portId =>
      some { interface, chassisId, chassisIdKind, portId, systemName := st.sysname }
  | _, _ => none

/-- **A frame says what its records say.** -/
lemma parseLldpdu_eq (buf : List UInt8) (interface : String) :
    parseLldpdu buf interface
      = .ok ((Fields.assignAll ⟨none, none, none⟩ (Tlv.decode buf)).neighbor interface) := by
  rw [parseLldpdu, parseLoop_eq, List.drop_zero]
  rfl

/-! ### The records of one type -/

/-- A variable that only the records of one type assign holds what the last of them says. -/
lemma Fields.get_assignAll {α : Type} {get : Fields → α} {k : ℕ} {parse : List UInt8 → α}
    (hget : ∀ (st : Fields) ty val,
      get (st.assign ty val) = if ty = k then parse val else get st)
    (st : Fields) (rs : List Tlv.Record) :
    get (st.assignAll rs)
      = ((rs.filter (·.type = k)).getLast?.map fun r => parse r.value).getD (get st) := by
  induction rs generalizing st with
  | nil => rfl
  | cons r rs ih =>
      have hstep : st.assignAll (r :: rs) = (st.assign r.type r.value).assignAll rs := rfl
      rw [hstep, ih, hget]
      by_cases hk : r.type = k
      · rw [if_pos hk, List.filter_cons_of_pos (by simpa using hk), List.getLast?_cons]
        cases (rs.filter (·.type = k)).getLast? <;> rfl
      · rw [if_neg hk, List.filter_cons_of_neg (by simpa using hk)]

section Assign

variable (st : Fields) (ty : ℕ) (val : List UInt8)

lemma Fields.chassis_assign :
    (st.assign ty val).chassis = if ty = 1 then parseChassisId val else st.chassis := by
  unfold assign
  split <;> simp_all

lemma Fields.port_assign :
    (st.assign ty val).port = if ty = 2 then parsePortId val else st.port := by
  unfold assign
  split <;> simp_all

lemma Fields.sysname_assign :
    (st.assign ty val).sysname = if ty = 5 then parseSystemName val else st.sysname := by
  unfold assign
  split <;> simp_all

end Assign

/-- Without a record of a mandatory type there is no neighbour. -/
lemma parseLldpdu_of_missing {buf : List UInt8} {k : ℕ} (hk : k = 1 ∨ k = 2)
    (h : ∀ r ∈ Tlv.decode buf, r.type ≠ k) (interface : String) :
    parseLldpdu buf interface = .ok none := by
  have hfilter : (Tlv.decode buf).filter (·.type = k) = [] :=
    List.filter_eq_nil_iff.mpr fun r hr => by simpa using h r hr
  rw [parseLldpdu_eq, Fields.neighbor]
  rcases hk with rfl | rfl
  · rw [Fields.get_assignAll Fields.chassis_assign, hfilter]
    rfl
  · rw [Fields.get_assignAll Fields.port_assign, hfilter]
    cases (Fields.assignAll ⟨none, none, none⟩ (Tlv.decode buf)).chassis <;> rfl

/-! ### Frames -/

lemma fromUtf8_eq_some_iff {bytes : List UInt8} {s : String} :
    fromUtf8 bytes = some s ↔ bytes = Utf8.bytes s := by
  rw [fromUtf8, String.fromUTF8?]
  constructor
  · intro h
    split_ifs at h
    obtain rfl := Option.some.inj h
    rfl
  · rintro rfl
    exact dif_pos s.isValidUTF8

/-- The name that a frame gives its system: the text that a record of type 5 holds as UTF-8,
unless it is empty. -/
def SystemName (ts : List Tlv.Record) (name : Option String) : Prop :=
  ∀ s, name = some s ↔ s ≠ "" ∧ ∃ t ∈ ts, t.type = 5 ∧ t.value = Utf8.bytes s

/-- What the last record of type 5 says is the name, if there is no other. -/
lemma systemName_assignAll {ts : List Tlv.Record} (hs : (ts.filter (·.type = 5)).length ≤ 1) :
    SystemName ts (Fields.assignAll ⟨none, none, none⟩ ts).sysname := by
  intro s
  rw [Fields.get_assignAll Fields.sysname_assign]
  have hmem (t : Tlv.Record) : t ∈ ts.filter (·.type = 5) ↔ t ∈ ts ∧ t.type = 5 := by
    simp [List.mem_filter]
  generalize hnamed : ts.filter (·.type = 5) = named at hs hmem
  match named, hs with
  | [], _ =>
      refine iff_of_false (by simp) ?_
      rintro ⟨-, t, ht, htype, -⟩
      exact List.not_mem_nil ((hmem t).mpr ⟨ht, htype⟩)
  | [t], _ =>
      obtain ⟨ht, htype⟩ := (hmem t).mp List.mem_cons_self
      have hname : parseSystemName t.value = some s ↔ t.value = Utf8.bytes s ∧ s ≠ "" := by
        rw [parseSystemName, Option.filter_eq_some_iff, fromUtf8_eq_some_iff, decide_eq_true_eq]
      rw [List.getLast?_singleton, Option.map_some, Option.getD_some, hname, and_comm]
      refine and_congr_right fun _ => ⟨fun h => ⟨t, ht, htype, h⟩, ?_⟩
      rintro ⟨u, hu, hutype, h⟩
      rwa [List.mem_singleton.mp ((hmem u).mpr ⟨hu, hutype⟩)] at h

/-- If one record of a list has a property, none before it has. -/
lemma not_of_filter_eq_singleton {α : Type} {p : α → Bool} {pre post : List α} {t c : α}
    (h : (pre ++ t :: post).filter p = [c]) (ht : p t) : ∀ x ∈ pre, ¬ p x := by
  rw [List.filter_append, List.filter_cons_of_pos ht] at h
  have hlength := congrArg List.length h
  rw [List.length_append, List.length_cons, List.length_singleton] at hlength
  exact List.filter_eq_nil_iff.mp (List.length_eq_zero_iff.mp (by omega))

/-- **A frame is decoded exactly.** Of records that contain one chassis id, one port id and
at most one system name, in any order and among any others, the decoder makes the neighbour
that these say, with the text of the system name if that is one; what follows the end marker
does not count. If the buffer ends before a mandatory record does, there is no neighbour. No
buffer makes the decoder leave it. -/
theorem parseLldpdu_exact {ts : List Tlv.Record} {c p e : Tlv.Record}
    (hts : ∀ t ∈ ts, t.type ≠ 0) (hc : ts.filter (·.type = 1) = [c])
    (hp : ts.filter (·.type = 2) = [p]) (hs : (ts.filter (·.type = 5)).length ≤ 1)
    (he : e.type = 0) (trailing : List UInt8) (interface : String) :
    (∃ systemName, SystemName ts systemName ∧
      parseLldpdu (Tlv.encodeAll ts ++ e.encode ++ trailing) interface
        = .ok (match parseChassisId c.value, parsePortId p.value with
          | some (chassisId, chassisIdKind), some portId =>
              some { interface, chassisId, chassisIdKind, portId, systemName }
          | _, _ => none)) ∧
      (∀ pre t post, ts = pre ++ t :: post → t.type = 1 ∨ t.type = 2 →
        ∀ n < (Tlv.encodeAll (pre ++ [t])).length,
          parseLldpdu ((Tlv.encodeAll ts ++ e.encode ++ trailing).take n) interface = .ok none) ∧
      ∀ (buf : List UInt8) (i : String), ∃ r, parseLldpdu buf i = .ok r := by
  refine ⟨?exact, ?cut, fun buf i => ⟨_, parseLldpdu_eq buf i⟩⟩
  case exact =>
    have hchassis : (Fields.assignAll ⟨none, none, none⟩ ts).chassis = parseChassisId c.value := by
      rw [Fields.get_assignAll Fields.chassis_assign, hc]
      rfl
    have hport : (Fields.assignAll ⟨none, none, none⟩ ts).port = parsePortId p.value := by
      rw [Fields.get_assignAll Fields.port_assign, hp]
      rfl
    refine ⟨_, systemName_assignAll hs, ?_⟩
    rw [parseLldpdu_eq, Tlv.decode_encodeAll hts he, Fields.neighbor, hchassis, hport]
  case cut =>
    rintro pre t post rfl htype n hn
    have hprefix : Tlv.decode ((Tlv.encodeAll (pre ++ t :: post) ++ e.encode ++ trailing).take n)
        <+: pre := by
      rw [Tlv.encodeAll_append, Tlv.encodeAll_cons, Tlv.encodeAll_nil, List.append_nil] at hn
      have hbuf : Tlv.encodeAll (pre ++ t :: post) ++ e.encode ++ trailing
          = Tlv.encodeAll pre ++ (t.encode ++ (Tlv.encodeAll post ++ e.encode ++ trailing)) := by
        simp
      rw [hbuf]
      exact Tlv.decode_take _ hn
    refine parseLldpdu_of_missing htype (fun r hr => ?_) interface
    have hr := hprefix.subset hr
    rcases htype with h | h
    · rw [h]
      simpa using not_of_filter_eq_singleton hc (by simpa using h) r hr
    · rw [h]
      simpa using not_of_filter_eq_singleton hp (by simpa using h) r hr

/-- The frame of a switch with the chassis id `1c:2a:a3:1e:c7:b4` and the port `TE4`, with
a time to live and four bytes of padding; the frame without its last eleven bytes; and the
frame of a switch that gives its name, with the records in another order. -/
theorem parseLldpdu_lab_switch :
    parseLldpdu [0x02, 0x07, 0x04, 0x1c, 0x2a, 0xa3, 0x1e, 0xc7, 0xb4, 0x04, 0x04, 0x07, 0x54,
        0x45, 0x34, 0x06, 0x02, 0x00, 0x78, 0x00, 0x00, 0x00, 0x00, 0x00, 0x00] "eno1np0"
      = .ok (some { interface := "eno1np0", chassisId := "1c:2a:a3:1e:c7:b4",
                    chassisIdKind := .mac, portId := "TE4", systemName := none }) ∧
    parseLldpdu [0x02, 0x07, 0x04, 0x1c, 0x2a, 0xa3, 0x1e, 0xc7, 0xb4, 0x04, 0x04, 0x07, 0x54,
        0x45] "eno1np0" = .ok none ∧
    parseLldpdu [0x08, 0x00, 0x0a, 0x07, 0x73, 0x77, 0x69, 0x74, 0x63, 0x68, 0x31, 0x04, 0x05,
        0x07, 0x70, 0x6f, 0x72, 0x74, 0x02, 0x07, 0x04, 0x00, 0x11, 0x22, 0x33, 0x44, 0x55, 0x00,
        0x00] "eth0"
      = .ok (some { interface := "eth0", chassisId := "00:11:22:33:44:55", chassisIdKind := .mac,
                    portId := "port", systemName := some "switch1" }) := by
  let c : Tlv.Record := ⟨1, [0x04, 0x1c, 0x2a, 0xa3, 0x1e, 0xc7, 0xb4], by decide, by decide⟩
  let p : Tlv.Record := ⟨2, [0x07, 0x54, 0x45, 0x34], by decide, by decide⟩
  let ttl : Tlv.Record := ⟨3, [0x00, 0x78], by decide, by decide⟩
  let c' : Tlv.Record := ⟨1, [0x04, 0x00, 0x11, 0x22, 0x33, 0x44, 0x55], by decide, by decide⟩
  let p' : Tlv.Record := ⟨2, [0x07, 0x70, 0x6f, 0x72, 0x74], by decide, by decide⟩
  let name : Tlv.Record := ⟨5, [0x73, 0x77, 0x69, 0x74, 0x63, 0x68, 0x31], by decide, by decide⟩
  let description : Tlv.Record := ⟨4, [], by decide, by decide⟩
  let e : Tlv.Record := ⟨0, [], by decide, by decide⟩
  obtain ⟨⟨unnamed, hunnamed, hexact⟩, hcut, -⟩ := @parseLldpdu_exact [c, p, ttl] c p e
    (by decide) (by decide) (by decide) (by decide) rfl [0x00, 0x00, 0x00, 0x00] "eno1np0"
  obtain ⟨⟨named, hnamed, hexact'⟩, -, -⟩ := @parseLldpdu_exact [description, name, p', c'] c' p' e
    (by decide) (by decide) (by decide) (by decide) rfl [] "eth0"
  have hnone : unnamed = none := by
    refine Option.eq_none_iff_forall_ne_some.mpr fun s hs => ?_
    obtain ⟨-, t, ht, htype, -⟩ := (hunnamed s).mp hs
    have htypes : ∀ t ∈ [c, p, ttl], t.type ≠ 5 := by decide
    exact htypes t ht htype
  have hsome : named = some "switch1" :=
    (hnamed "switch1").mpr ⟨by decide, name, by decide, rfl, by decide⟩
  have hchassis : parseChassisId c.value = some ("1c:2a:a3:1e:c7:b4", .mac) := by decide
  have hport : parsePortId p.value = some "TE4" := by decide
  have hchassis' : parseChassisId c'.value = some ("00:11:22:33:44:55", .mac) := by decide
  have hport' : parsePortId p'.value = some "port" := by decide
  have hbuf : Tlv.encodeAll [c, p, ttl] ++ e.encode ++ [0x00, 0x00, 0x00, 0x00] = [0x02, 0x07, 0x04,
      0x1c, 0x2a, 0xa3, 0x1e, 0xc7, 0xb4, 0x04, 0x04, 0x07, 0x54, 0x45, 0x34, 0x06, 0x02, 0x00,
      0x78, 0x00, 0x00, 0x00, 0x00, 0x00, 0x00] := by decide
  have hbuf' : Tlv.encodeAll [description, name, p', c'] ++ e.encode ++ [] = [0x08, 0x00, 0x0a,
      0x07, 0x73, 0x77, 0x69, 0x74, 0x63, 0x68, 0x31, 0x04, 0x05, 0x07, 0x70, 0x6f, 0x72, 0x74,
      0x02, 0x07, 0x04, 0x00, 0x11, 0x22, 0x33, 0x44, 0x55, 0x00, 0x00] := by decide
  rw [hchassis, hport, hnone, hbuf] at hexact
  rw [hchassis', hport', hsome, hbuf'] at hexact'
  rw [hbuf] at hcut
  exact ⟨hexact, hcut [c] p [ttl] rfl (Or.inr rfl) 14 (by decide), hexact'⟩

end Accelrd.Topology.Lldp
